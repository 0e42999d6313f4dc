import BG96Driver.Socket.Receive
import BG96Driver.Socket.Timeout

/-!
# A reused socket

`socket_open` and `socket_close` leave most fields of the three records as they are. A session reads
such a field only after it has set it, with these exceptions: `m_rx_disTO`, for which `g_eq_event`
polls a socket that has no read; `dptr_size`, which `getsockopt` gives; and `goSlow`
(`BG96Driver/Socket/Timeout.lean`), which is not the socket's own.

* `fresh`: a ghost: no `socket_recv` has started a read since the socket was opened or closed.
* `Clean`: the acts that read no field of an older session.
* `Alike`: the relation of two slots that differ only in what a session has not set.
* `reused_slot`: two sessions of clean acts that get the same acts show the same.
-/

namespace Bg96

open History Interface

/-! ## Fresh sessions -/

/-- The ghost after an act. -/
def fresh (f : Bool) : Act → Bool
  | .open _ | .close => true
  | .recv data size _ => if size < 1 ∨ data = 0 then f else false
  | _ => f

/-- A socket's machine beside the ghost. -/
abbrev sessionStep : Slot → SlotState × Bool → Act → (SlotState × Bool) × List Out :=
  withGhost SlotState.step fresh

/-- The act of the slot `i` reads nothing that an older session or another slot has left: no turn of
`g_eq_event` polls the socket for an old `m_rx_disTO`, or finds its read slowed; and `getsockopt`
gives a `dptr_size` that `setsockopt` has set. -/
def Clean (i k : Slot) (st : SlotState × Bool) (a : Act) : Prop :=
  k = i → match a with
    | .poll _ _ goSlow => (st.2 = true → st.1.rx.mRxDisTO = false) ∧
      (st.1.rx.mRxState = .readActive → st.1.rx.mRxDisTO = false → goSlow = false)
    | .getsockopt level optname optval optlen =>
      (optval ≠ 0 ∧ optlen ≠ 0) ∧ (level = .nsapiSocket ∧ st.1.sock.proto = .nsapiTcp) ∧
        optname = .nsapiRcvbuf → st.1.sock.dptrSize = sizeofPtr
    | _ => True

/-! ## Slots that are alike -/

/-- The same socket, but for the fields that `socket_open` does not set. -/
def Bg96Socket.Alike (a b : Bg96Socket) : Prop :=
  ∃ addr p n, b = { a with addr := addr, dptrLast := p, dptrSize := n } ∧
    (a.connected = true → addr = a.addr)

/-- The same transmission, or none in this session. `n` calls of `socket_send` are in their
call-back. -/
def TxAlike (n : Nat) (tx tx' : TxEvent) : Prop :=
  tx' = tx ∨ tx.mTxState = .txIdle ∧ tx'.mTxState = .txIdle ∧ n = 0

/-- The same read, but for a timer that does not matter, or none in this session. `n` calls of
`socket_recv` are in their call-back. -/
def RxAlike (n : Nat) (f : Bool) (rx rx' : RxEvent) : Prop :=
  (∃ t, rx' = { rx with mRxTimer := t } ∧ TimerIs rx t) ∨
    rx.mRxState = .readStart ∧ rx'.mRxState = .readStart ∧ n = 0 ∧ f = true

/-- The slots differ only in what the session has not set. -/
structure Alike (a b : SlotState × Bool) : Prop where
  sock : a.1.sock.Alike b.1.sock
  tx : TxAlike a.1.inSend a.1.tx b.1.tx
  rx : RxAlike a.1.inRecv a.2 a.1.rx b.1.rx
  inSend : b.1.inSend = a.1.inSend
  inRecv : b.1.inRecv = a.1.inRecv
  ghost : b.2 = a.2

variable {a b : SlotState × Bool} {i : Slot} {x y : Act} {sock sock' : Bg96Socket}
  {tx tx' : TxEvent} {rx rx' : RxEvent} {n : Nat} {f : Bool}

/-- Two free slots are alike when they have been opened. -/
theorem alike_open (a b : SlotState × Bool) (proto : NsapiProtocol)
    (ha : a.1.inSend = 0 ∧ a.1.inRecv = 0) (hb : b.1.inSend = 0 ∧ b.1.inRecv = 0) :
    Alike (sessionStep i a (.open proto)).1 (sessionStep i b (.open proto)).1 where
  sock := ⟨b.1.sock.addr, b.1.sock.dptrLast, b.1.sock.dptrSize, rfl, nofun⟩
  tx := .inr ⟨rfl, rfl, ha.1⟩
  rx := .inr ⟨rfl, rfl, ha.2, rfl⟩
  inSend := hb.1.trans ha.1.symm
  inRecv := hb.2.trans ha.2.symm
  ghost := rfl

theorem connectLoop_alike (h : sock.Alike sock') (addr : SocketAddress) (opened : Nat → Bool)
    (turns cnt : Nat) (k : Bool) :
    connectLoop sock' addr opened turns cnt k = connectLoop sock addr opened turns cnt k := by
  obtain ⟨addr', p, n, rfl, -⟩ := h
  induction turns generalizing cnt k with
  | zero => rfl
  | succ turns ih => simp only [connectLoop, ih]

theorem connectEnter_alike (h : sock.Alike sock') (addr : SocketAddress) (opened : Nat → Bool) :
    (connectEnter sock addr opened).1.Alike (connectEnter sock' addr opened).1 ∧
      (connectEnter sock addr opened).2 = (connectEnter sock' addr opened).2 := by
  have hl := connectLoop_alike h addr opened 3 0 true
  obtain ⟨addr', p, n, rfl, haddr⟩ := h
  unfold connectEnter
  rw [hl]
  dsimp only
  split
  · split
    · exact ⟨⟨addr, p, n, rfl, fun _ => rfl⟩, rfl⟩
    · exact ⟨⟨addr, p, n, rfl, fun _ => rfl⟩, rfl⟩
  · exact ⟨⟨addr', p, n, rfl, haddr⟩, rfl⟩

theorem listen_alike (h : sock.Alike sock') :
    (listen sock).1.Alike (listen sock').1 ∧ (listen sock).2 = (listen sock').2 := by
  obtain ⟨addr, p, n, rfl, haddr⟩ := h
  unfold listen
  dsimp only
  split
  · exact ⟨⟨addr, p, n, rfl, haddr⟩, rfl⟩
  · exact ⟨⟨addr, p, n, rfl, haddr⟩, rfl⟩

theorem setsockopt_alike (h : sock.Alike sock') (level : OptLevel) (optname : OptName)
    (optval optlen : Nat) :
    (setsockopt sock level optname optval optlen).1.Alike
        (setsockopt sock' level optname optval optlen).1 ∧
      (setsockopt sock level optname optval optlen).2 =
        (setsockopt sock' level optname optval optlen).2 := by
  obtain ⟨addr, p, n, rfl, haddr⟩ := h
  unfold setsockopt
  dsimp only
  split
  · exact ⟨⟨addr, p, n, rfl, haddr⟩, rfl⟩
  · split
    · split
      · split
        · exact ⟨⟨addr, _, _, rfl, haddr⟩, rfl⟩
        · exact ⟨⟨addr, p, n, rfl, haddr⟩, rfl⟩
      · exact ⟨⟨addr, p, n, rfl, haddr⟩, rfl⟩
    · exact ⟨⟨addr, p, n, rfl, haddr⟩, rfl⟩

theorem getsockopt_alike (h : sock.Alike sock') {level : OptLevel} {optname : OptName}
    {optval optlen : Nat}
    (hsize : (optval ≠ 0 ∧ optlen ≠ 0) ∧ (level = .nsapiSocket ∧ sock.proto = .nsapiTcp) ∧
      optname = .nsapiRcvbuf → sock.dptrSize = sock'.dptrSize) :
    getsockopt sock level optname optval optlen = getsockopt sock' level optname optval optlen := by
  obtain ⟨addr, p, n, rfl, -⟩ := h
  unfold getsockopt
  dsimp only
  split
  · rfl
  · rename_i hargs
    split
    · rename_i hlevel
      split
      · rw [hsize ⟨by omega, hlevel, rfl⟩]
      · rfl
    · rfl

/-! ## The transmission -/

theorem TxAlike.send (h : TxAlike n tx tx') (hsock : sock.Alike sock') (data size : Nat)
    (done : Bool) :
    TxAlike (if (sendEnter sock tx data size done).2.2 = .callBack then n + 1 else n)
        (sendEnter sock tx data size done).1 (sendEnter sock' tx' data size done).1 ∧
      (sendEnter sock tx data size done).2 = (sendEnter sock' tx' data size done).2 := by
  have hstart : sendStart sock' data size = sendStart sock data size := by
    obtain ⟨addr, p, m, rfl, -⟩ := hsock
    rfl
  rcases h with rfl | ⟨hs, hs', rfl⟩
  · have he : sendEnter sock' tx' data size done = sendEnter sock tx' data size done := by
      unfold sendEnter
      rw [hstart]
    rw [he]
    exact ⟨.inl rfl, rfl⟩
  · unfold sendEnter
    by_cases hargs : size < 1 ∨ data = 0
    · rw [if_pos hargs, if_pos hargs]
      exact ⟨.inr ⟨hs, hs', by simp⟩, rfl⟩
    · rw [if_neg hargs, if_neg hargs]
      simp only [hs, hs', hstart]
      exact ⟨.inl rfl, trivial⟩

theorem TxAlike.poll (h : TxAlike n tx tx') (done g g' : Bool) :
    TxAlike n (pollTx tx done g).1 (pollTx tx' done g').1 ∧
      (pollTx tx done g).2.1 = (pollTx tx' done g').2.1 := by
  rcases h with rfl | ⟨hs, hs', hn⟩
  · obtain ⟨htx, hout⟩ := pollTx_goSlow tx' done g g'
    exact ⟨.inl htx.symm, hout⟩
  · unfold pollTx
    rw [if_neg (by simp [hs]), if_neg (by simp [hs'])]
    exact ⟨.inr ⟨hs, hs', hn⟩, rfl⟩

theorem TxAlike.fire (h : TxAlike n tx tx') :
    TxAlike n (fireTx tx).1 (fireTx tx').1 ∧ (fireTx tx).2 = (fireTx tx').2 := by
  rcases h with rfl | ⟨hs, hs', hn⟩
  · exact ⟨.inl rfl, rfl⟩
  · unfold fireTx
    rw [if_neg (by simp [hs]), if_neg (by simp [hs'])]
    exact ⟨.inr ⟨hs, hs', hn⟩, rfl⟩

theorem TxAlike.reset (h : TxAlike n tx tx') :
    TxAlike n { tx with mTxState := .txIdle } { tx' with mTxState := .txIdle } := by
  rcases h with rfl | ⟨-, -, hn⟩
  · exact .inl rfl
  · exact .inr ⟨rfl, rfl, hn⟩

/-! ## The read -/

theorem RxAlike.recv (h : RxAlike n f rx rx') (hsock : sock.Alike sock') (data size : Nat)
    (res : RecvResult) :
    RxAlike (if (recvEnter sock rx data size res).2.2 = .callBack then n + 1 else n)
        (fresh f (.recv data size res)) (recvEnter sock rx data size res).1
        (recvEnter sock' rx' data size res).1 ∧
      (recvEnter sock rx data size res).2 = (recvEnter sock' rx' data size res).2 := by
  have hstart : recvStart sock' data size = recvStart sock data size := by
    obtain ⟨addr, p, m, rfl, -⟩ := hsock
    rfl
  rcases h with ⟨t, rfl, ht⟩ | ⟨hs, hs', rfl, hf⟩
  · obtain ⟨t', he, ht'⟩ := recvEnter_timer sock data size res ht
    have he' : recvEnter sock' { rx with mRxTimer := t } data size res =
        recvEnter sock { rx with mRxTimer := t } data size res := by
      unfold recvEnter
      rw [hstart]
    rw [he', he]
    exact ⟨.inl ⟨t', rfl, ht'⟩, rfl⟩
  · unfold recvEnter
    by_cases hargs : size < 1 ∨ data = 0
    · rw [if_pos hargs, if_pos hargs]
      exact ⟨.inr ⟨hs, hs', by simp, by simp only [fresh, hargs, ↓reduceIte, hf]⟩, rfl⟩
    · rw [if_neg hargs, if_neg hargs]
      simp only [hs, hs', hstart]
      exact ⟨.inl ⟨_, rfl, fun _ _ => rfl⟩, trivial⟩

theorem RxAlike.poll (h : RxAlike n f rx rx') (res : RecvResult) {g g' : Bool}
    (hf : f = true → rx.mRxDisTO = false ∧ rx'.mRxDisTO = false)
    (hg : rx.mRxState = .readActive → rx.mRxDisTO = false → g = false)
    (hg' : rx'.mRxState = .readActive → rx'.mRxDisTO = false → g' = false) :
    RxAlike n f (pollRx rx res g).1 (pollRx rx' res g').1 ∧
      (pollRx rx res g).2.1 = (pollRx rx' res g').2.1 := by
  rcases h with ⟨t, rfl, ht⟩ | ⟨hs, hs', hn, hfresh⟩
  · obtain ⟨t', hrx, hout, ht'⟩ := pollRx_timer res ht fun hs hdis => ⟨hg hs hdis, hg' hs hdis⟩
    exact ⟨.inl ⟨t', hrx, ht'⟩, hout.symm⟩
  · obtain ⟨hdis, hdis'⟩ := hf hfresh
    unfold pollRx
    rw [if_neg (by simp [hs, hdis]), if_neg (by simp [hs', hdis'])]
    exact ⟨.inr ⟨hs, hs', hn, hfresh⟩, rfl⟩

theorem RxAlike.fire (h : RxAlike n f rx rx') :
    RxAlike n f (fireRx rx).1 (fireRx rx').1 ∧ (fireRx rx).2 = (fireRx rx').2 := by
  rcases h with ⟨t, rfl, ht⟩ | ⟨hs, hs', hn⟩
  · unfold fireRx
    dsimp only
    split
    · exact ⟨.inl ⟨t, rfl, nofun⟩, rfl⟩
    · exact ⟨.inl ⟨t, rfl, ht⟩, rfl⟩
  · unfold fireRx
    rw [if_neg (by simp [hs]), if_neg (by simp [hs'])]
    exact ⟨.inr ⟨hs, hs', hn⟩, rfl⟩

theorem RxAlike.reset (h : RxAlike n f rx rx') :
    RxAlike n true { rx with mRxState := .readStart } { rx' with mRxState := .readStart } := by
  rcases h with ⟨t, rfl, -⟩ | ⟨-, -, hn, -⟩
  · exact .inl ⟨t, rfl, nofun⟩
  · exact .inr ⟨rfl, rfl, hn, rfl⟩

/-! ## One slot -/

/-- The acts on the handle's own record. -/
def Act.onSock : Act → Bool
  | .attach .. | .listen | .connect .. | .connectRet | .recvfrom | .setsockopt ..
  | .getsockopt .. => true
  | _ => false

theorem Alike.ofSock (h : Alike a b) (hx : x.onSock = true)
    (hsock : (a.1.step i x).1.sock.Alike (b.1.step i x).1.sock) :
    Alike (sessionStep i a x).1 (sessionStep i b x).1 := by
  cases x with
  | attach | listen | connect | connectRet | recvfrom | setsockopt | getsockopt =>
    exact ⟨hsock, h.tx, h.rx, h.inSend, h.inRecv, h.ghost⟩
  | _ => cases hx

/-- **Step.** The same clean act on slots that are alike shows the same, and they stay alike. -/
theorem Alike.step (h : Alike a b) (hxy : x.seen = y.seen) (hx : SlotState.Allowed i a.1 x)
    (hcx : Clean i i a x) (hcy : Clean i i b y) :
    Alike (sessionStep i a x).1 (sessionStep i b y).1 ∧
      (sessionStep i a x).2 = (sessionStep i b y).2 := by
  have hcx := hcx rfl
  have hcy := hcy rfl
  obtain ⟨hp, rfl⟩ | ⟨res, done, g, g', rfl, rfl⟩ := Act.seen_eq hxy
  · cases y with
    | poll => cases hp
    | «open» =>
      exact ⟨⟨⟨b.1.sock.addr, b.1.sock.dptrLast, b.1.sock.dptrSize, rfl, nofun⟩, h.tx.reset,
        h.rx.reset, h.inSend, h.inRecv, rfl⟩, rfl⟩
    | close =>
      refine ⟨⟨⟨b.1.sock.addr, b.1.sock.dptrLast, b.1.sock.dptrSize, rfl, nofun⟩, h.tx.reset,
        h.rx.reset, h.inSend, h.inRecv, rfl⟩, ?_⟩
      obtain ⟨addr, p, m, hs, -⟩ := h.sock
      dsimp only [sessionStep, withGhost, SlotState.step, closeSocket]
      rw [hs]
    | attach callback data =>
      obtain ⟨addr, p, m, hs, haddr⟩ := h.sock
      refine ⟨h.ofSock rfl ⟨addr, p, m, ?_, haddr⟩, rfl⟩
      dsimp only [SlotState.step]
      rw [hs]
    | listen =>
      obtain ⟨hs, hout⟩ := listen_alike h.sock
      exact ⟨h.ofSock rfl hs, (Prod.ext_iff.mp hout).1⟩
    | connect addr opened =>
      obtain ⟨hs, hout⟩ := connectEnter_alike h.sock addr opened
      exact ⟨h.ofSock rfl hs, (Prod.ext_iff.mp hout).1⟩
    | connectRet =>
      exact ⟨h.ofSock rfl h.sock, rfl⟩
    | recvfrom =>
      refine ⟨h.ofSock rfl h.sock, ?_⟩
      obtain ⟨addr, p, m, hs, haddr⟩ := h.sock
      dsimp only [sessionStep, withGhost, SlotState.step]
      rw [hs]
      dsimp only
      split
      · rw [haddr ‹_›]
      · rfl
    | setsockopt level optname optval optlen =>
      obtain ⟨hs, hout⟩ := setsockopt_alike h.sock level optname optval optlen
      refine ⟨h.ofSock rfl hs, ?_⟩
      dsimp only [sessionStep, withGhost, SlotState.step]
      rw [hout]
    | getsockopt level optname optval optlen =>
      refine ⟨h.ofSock rfl h.sock, ?_⟩
      have hproto : b.1.sock.proto = a.1.sock.proto := by
        obtain ⟨addr, p, m, hs, -⟩ := h.sock
        rw [hs]
      dsimp only [sessionStep, withGhost, SlotState.step]
      rw [getsockopt_alike h.sock fun hc =>
        (hcx hc).trans (hcy ⟨hc.1, hproto ▸ hc.2.1, hc.2.2⟩).symm]
    | send data size done =>
      obtain ⟨htx, hout⟩ := h.tx.send h.sock data size done
      rw [Prod.ext_iff] at hout
      refine ⟨⟨h.sock, htx, h.rx, ?_, h.inRecv, h.ghost⟩, hout.1⟩
      dsimp only [sessionStep, withGhost, SlotState.step]
      rw [← hout.2, h.inSend]
    | sendRet =>
      have hin : 0 < a.1.inSend := hx
      rcases h.tx with htx | ⟨-, -, hn⟩
      · refine ⟨⟨h.sock, .inl ?_, h.rx, ?_, h.inRecv, h.ghost⟩, ?_⟩
        · dsimp only [sessionStep, withGhost, SlotState.step]
          rw [htx]
        · dsimp only [sessionStep, withGhost, SlotState.step]
          rw [h.inSend]
        · dsimp only [sessionStep, withGhost, SlotState.step]
          rw [htx]
      · omega
    | recv data size res =>
      obtain ⟨hrx, hout⟩ := h.rx.recv h.sock data size res
      rw [Prod.ext_iff] at hout
      refine ⟨⟨h.sock, h.tx, hrx, h.inSend, ?_, by
        dsimp only [sessionStep, withGhost]; rw [h.ghost]⟩, hout.1⟩
      dsimp only [sessionStep, withGhost, SlotState.step]
      rw [← hout.2, h.inRecv]
    | recvRet =>
      have hin : 0 < a.1.inRecv := hx
      rcases h.rx with ⟨t, hrx, -⟩ | ⟨-, -, hn, -⟩
      · refine ⟨⟨h.sock, h.tx, .inl ⟨t, ?_, nofun⟩, h.inSend, ?_, h.ghost⟩, ?_⟩
        · dsimp only [sessionStep, withGhost, SlotState.step]
          rw [hrx]
          rfl
        · dsimp only [sessionStep, withGhost, SlotState.step]
          rw [h.inRecv]
        · dsimp only [sessionStep, withGhost, SlotState.step]
          rw [hrx]
          rfl
      · omega
    | fireRx =>
      obtain ⟨hrx, hout⟩ := h.rx.fire
      rw [Prod.ext_iff] at hout
      exact ⟨⟨h.sock, h.tx, hrx, h.inSend, h.inRecv, h.ghost⟩, hout.1⟩
    | fireTx =>
      obtain ⟨htx, hout⟩ := h.tx.fire
      rw [Prod.ext_iff] at hout
      exact ⟨⟨h.sock, htx, h.rx, h.inSend, h.inRecv, h.ghost⟩, hout.1⟩
  · obtain ⟨htx, hout⟩ := h.tx.poll done (pollRx a.1.rx res g).2.2.2 (pollRx b.1.rx res g').2.2.2
    obtain ⟨hrx, hout'⟩ := h.rx.poll res (fun hf => ⟨hcx.1 hf, hcy.1 (h.ghost.trans hf)⟩)
      hcx.2 hcy.2
    refine ⟨⟨h.sock, htx, hrx, h.inSend, h.inRecv, h.ghost⟩, ?_⟩
    dsimp only [sessionStep, withGhost, SlotState.step]
    rw [hout, hout']

/-! ## Two sessions -/

/-- Only `socket_recv` starts a read that waits. -/
theorem step_active {st : SlotState} (h : (st.step i x).1.rx.mRxState = .readActive) :
    st.rx.mRxState = .readActive ∨ ∃ p n res, x = .recv p n res ∧ 1 ≤ n ∧ p ≠ 0 := by
  cases x with
  | recv p n res =>
    rcases he : recvEnter st.sock st.rx p n res with ⟨rx, out, next⟩
    simp only [SlotState.step, he] at h
    cases recvEnter_cases he with
    | refuse => exact .inl h
    | block _ _ hsize hdata => exact .inr ⟨p, n, res, rfl, hsize, hdata⟩
    | collect | callBack | sync => cases h
  | poll res done g =>
    rcases he : pollRx st.rx res g with ⟨rx, out, event, g'⟩
    simp only [SlotState.step, he] at h
    cases pollRx_cases he with
    | pass => exact .inl h
    | poll _ _ _ _ hpoll hevent =>
      cases hevent with
      | error | idle => exact .inl h
      | data | timeout => dsimp only at h; split at h <;> cases h
  | fireRx => exact .inl (fireRx_active rfl h)
  | «open» | close | recvRet => cases h
  | _ => exact .inl h

/-- A socket that is not open waits for no read. -/
theorem step_closed {st : SlotState} (ha : SlotState.Allowed i st x)
    (h : st.sock.id = -1 → st.rx.mRxState ≠ .readActive) (hid : (st.step i x).1.sock.id = -1) :
    (st.step i x).1.rx.mRxState ≠ .readActive := by
  intro hs
  by_cases hsession : .session ∈ x.sides
  · cases x with
    | «open» | close => cases hs
    | _ => simp [Act.sides] at hsession
  · rw [SlotState.step_id hsession] at hid
    rcases step_active hs with hs | ⟨p, n, res, rfl, -, -⟩
    · exact h hid hs
    · have ha : st.sock.id = i.val := ha
      omega

/-- In a fresh session no read waits. -/
theorem step_fresh (h : a.2 = true → a.1.rx.mRxState ≠ .readActive)
    (hf : (sessionStep i a x).1.2 = true) : (sessionStep i a x).1.1.rx.mRxState ≠ .readActive := by
  intro hs
  rcases step_active hs with hs' | ⟨p, n, res, rfl, hsize, hdata⟩
  · cases x with
    | «open» | close => cases hs
    | recv p n res =>
      have hf : (if n < 1 ∨ p = 0 then a.2 else false) = true := hf
      exact h (by split at hf <;> first | exact hf | cases hf) hs'
    | _ => exact h hf hs'
  · have hf : (if n < 1 ∨ p = 0 then a.2 else false) = true := hf
    rw [if_neg (by omega)] at hf
    cases hf

variable {raw raw' : Slot → SlotState} {s s' t t' : Interface} {ks ks' : List Label}
  {new new' : Trace} {acts : List Act} {proto : NsapiProtocol}

/-- The slots of `s` at the start of a continuation: the slot that it opens is free, so its session
is fresh. -/
def freshSlots (s : Interface) (j : Slot) : SlotState × Bool := (s.slot j, true)

/-- What a run adds to the trace is a history of the slots. -/
theorem Run.history (hs : Reachable raw s) (hk : Run (fun _ _ => True) s ks t)
    (ht : t.trace = new ++ s.trace) :
    Honest sessionStep (freshSlots s) new ∧
      Along sessionStep (fun k a x => SlotState.Allowed k a.1 x) (freshSlots s) new := by
  have hg := hk.good hs.good
  obtain ⟨-, -, hh, ha⟩ := hg
  rw [ht] at hh ha
  have hslot : (fun k => (freshSlots s k).1) = after SlotState.step (ctor raw).slot s.trace :=
    hs.good.replay
  refine ⟨honest_withGhost.mpr ?_, along_withGhost.mpr ?_⟩
  · rw [hslot]; exact (honest_append.mp hh).1
  · rw [hslot]; exact (along_append.mp ha).1

theorem Act.seen_open (h : x.seen = .open proto) : x = .open proto := by
  cases x with
  | poll => cases h
  | _ => exact h

/-- A continuation that starts with `socket_open` is cut after it. -/
theorem exists_open (hh : Honest sessionStep (freshSlots s) new)
    (ha : Along sessionStep (fun k a x => SlotState.Allowed k a.1 x) (freshSlots s) new)
    (hin : (inputs i new).map Act.seen = acts ++ [.open proto]) :
    ∃ up mid, new = up ++ mid ∧ (inputs i up).map Act.seen = acts ∧
      outputs i mid = [.ret .socketOpen nsapiErrorOk] ∧ (s.slot i).sock.id = -1 ∧
      after sessionStep (freshSlots s) mid i =
        (sessionStep i (freshSlots s i) (.open proto)).1 := by
  obtain ⟨xs, ys, hxy, hxs, hys⟩ := List.map_eq_append_iff.mp hin
  obtain ⟨y, rfl, hy⟩ := List.map_eq_singleton_iff.mp hys
  obtain rfl := Act.seen_open hy
  obtain ⟨up, e, low, rfl, hk, he, rfl, hlow⟩ := exists_oldest hxy
  obtain ⟨hst, hout⟩ := others_eq sessionStep (freshSlots s) [] hlow
  rw [List.append_nil] at hst hout
  refine ⟨up, e :: low, rfl, hxs, ?_, ?_, ?_⟩
  · rw [outputs, if_pos hk, hout, (honest_append.mp hh).2.1, hk, he]
    rfl
  · have hopen := (along_append.mp ha).2.1
    rw [hk, he, hst] at hopen
    exact hopen
  · rw [after_cons_self hk, he, hst]
    rfl

/-- A poll in a fresh session that is clean does not read. -/
theorem poll_fresh {res : RecvResult} {done g : Bool} (hs : a.1.rx.mRxState ≠ .readActive)
    (hf : a.2 = true) (hc : Clean i i a (.poll res done g)) :
    ∀ x ∈ (sessionStep i a (.poll res done g)).2, x.side ≠ .receive := by
  have hdis := (hc rfl).1 hf
  have hr : pollRx a.1.rx res g = (a.1.rx, [], eventComplete, g) := if_neg (by simp [hs, hdis])
  rcases ht : pollTx a.1.tx done g with ⟨tx, out, event, g'⟩
  simp only [sessionStep, withGhost, SlotState.step, hr, ht]
  exact (pollTx_cases ht).sides.ne (by simp) (by decide)

/-- **A reused socket carries nothing over.** Two runs reach states between two steps, and go on
from there with continuations that are clean for the slot `i`. Each starts its session with
`socket_open`, so the slot is free before, and gives the slot the same acts. Then it shows the same
in both: what its calls return, the commands with its id, and the stores in the caller's memory.
Also, between a `socket_open` or a `socket_close` and the next read that `socket_recv` starts, no
turn of `g_eq_event` reads for the slot or stores anything. -/
theorem reused_slot (hs : Reachable raw s) (hs' : Reachable raw' s')
    (hk : Run (fun _ _ => True) s ks t) (hk' : Run (fun _ _ => True) s' ks' t')
    (ht : t.trace = new ++ s.trace) (ht' : t'.trace = new' ++ s'.trace)
    (hc : Along sessionStep (Clean i) (freshSlots s) new)
    (hc' : Along sessionStep (Clean i) (freshSlots s') new')
    (hin : (inputs i new).map Act.seen = acts ++ [.open proto])
    (hin' : (inputs i new').map Act.seen = acts ++ [.open proto]) :
    outputs i new = outputs i new' ∧
    ∀ up h res done g out, new = up ++ ⟨i, .poll res done g, out⟩ :: h →
      (after sessionStep (freshSlots s) h i).2 = true →
      ∀ x ∈ out, x.side ≠ .receive := by
  obtain ⟨hh, ha⟩ := hk.history hs ht
  obtain ⟨hh', ha'⟩ := hk'.history hs' ht'
  refine ⟨?_, ?_⟩
  · obtain ⟨up, mid, rfl, hacts, hout, -, hst⟩ := exists_open hh ha hin
    obtain ⟨up', mid', rfl, hacts', hout', -, hst'⟩ := exists_open hh' ha' hin'
    have hinit : Alike (after sessionStep (freshSlots s) mid i)
        (after sessionStep (freshSlots s') mid' i) := by
      rw [hst, hst']
      exact alike_open _ _ proto (hs.frames i) (hs'.frames i)
    obtain ⟨-, houts⟩ := unwinding (k := i) (R := Alike)
      (fun _ _ _ _ hR hxy hP hP' => hR.step hxy hP.1 hP.2 hP'.2) hinit
      (honest_append.mp hh).1 (honest_append.mp hh').1
      ((along_append.mp ha).1.and (along_append.mp hc).1)
      ((along_append.mp ha').1.and (along_append.mp hc').1) (hacts.trans hacts'.symm)
    rw [outputs_append, outputs_append, hout, hout', houts]
  · obtain ⟨-, -, -, -, -, hid, -⟩ := exists_open hh ha hin
    rintro up h res done g out rfl hf x hx
    -- the slot waited for no read when it was free
    have hclosed : (s.slot i).rx.mRxState ≠ .readActive := by
      have hgood := hs.good
      have hI := along_invariant (k := i)
        (I := fun st => st.sock.id = -1 → st.rx.mRxState ≠ .readActive) (by simp [ctor])
        (fun st x hI hP => step_closed hP hI) hgood.allowed
      rw [← hgood.replay] at hI
      exact hI hid
    have hwait := along_invariant (k := i)
      (I := fun a => a.2 = true → a.1.rx.mRxState ≠ .readActive) (fun _ => hclosed)
      (fun a x hI _ => step_fresh hI) (along_append.mp ha).2.2
    have hout : out = _ := (honest_append.mp hh).2.1
    exact poll_fresh (hwait hf) hf (along_append.mp hc).2.1 x (hout ▸ hx)

instance (i k : Slot) (st : SlotState × Bool) (a : Act) : Decidable (Clean i k st a) :=
  match a with
  | .poll _ _ goSlow => inferInstanceAs (Decidable (_ → (st.2 = true → st.1.rx.mRxDisTO = false) ∧
      (st.1.rx.mRxState = .readActive → st.1.rx.mRxDisTO = false → goSlow = false)))
  | .getsockopt level optname optval optlen =>
    inferInstanceAs (Decidable (_ → (optval ≠ 0 ∧ optlen ≠ 0) ∧
      (level = .nsapiSocket ∧ st.1.sock.proto = .nsapiTcp) ∧ optname = .nsapiRcvbuf →
        st.1.sock.dptrSize = sizeofPtr))
  | .open _ | .close | .attach .. | .listen | .connect .. | .connectRet | .send .. | .sendRet
  | .recv .. | .recvRet | .recvfrom | .setsockopt .. | .fireRx | .fireTx => isTrue fun _ => trivial

/-- A session of slot `0` that only listens. -/
def listenClose : List Label :=
  [.call (.open .nsapiTcp) .done .done, .call (.listen 0) .done .done,
    .call (.close 0) .done .done]

/-- A session of slot `0` that sends. -/
def sendClose : List Label :=
  [.call (.open .nsapiUdp) .done .done, .call (.send 0 100 50 false) .done .done,
    .call (.close 0) .done .done]

/-- A session of slot `0` with a read that waits for one firing. -/
def openRecv : List Label :=
  [.call (.open .nsapiTcp) .done .done, .call (.recv 0 200 10 ⟨0, []⟩) .done .done,
    .tick (dataTick [1, 2, 3])]

/-- What both runs give the slot `0` after its `socket_open`, the newest first. -/
def openRecvActs : List Act :=
  [.fireTx, .fireRx, .poll ⟨3, [1, 2, 3]⟩ true false, .recv 200 10 ⟨0, []⟩]

theorem reused_slot_openRecv :
    outputs 0 ((afterSteps (listenClose ++ openRecv)).trace.take 17) =
      outputs 0 ((afterSteps (sendClose ++ openRecv)).trace.take 17) := by
  have hs : Reachable (fun _ => zeroSlot) (afterSteps listenClose) :=
    afterSteps_reachable (by decide)
  have hs' : Reachable (fun _ => zeroSlot) (afterSteps sendClose) :=
    afterSteps_reachable (by decide)
  have hk : Run (fun _ _ => True) (afterSteps listenClose) openRecv
      (afterSteps (listenClose ++ openRecv)) := AllEnabled.run (by decide)
  have hk' : Run (fun _ _ => True) (afterSteps sendClose) openRecv
      (afterSteps (sendClose ++ openRecv)) := AllEnabled.run (by decide)
  have ht : (afterSteps (listenClose ++ openRecv)).trace =
      (afterSteps (listenClose ++ openRecv)).trace.take 17 ++ (afterSteps listenClose).trace := rfl
  have ht' : (afterSteps (sendClose ++ openRecv)).trace =
      (afterSteps (sendClose ++ openRecv)).trace.take 17 ++ (afterSteps sendClose).trace := rfl
  have hin : (inputs 0 ((afterSteps (listenClose ++ openRecv)).trace.take 17)).map Act.seen =
      openRecvActs ++ [.open .nsapiTcp] := rfl
  have hin' : (inputs 0 ((afterSteps (sendClose ++ openRecv)).trace.take 17)).map Act.seen =
      openRecvActs ++ [.open .nsapiTcp] := rfl
  exact (reused_slot hs hs' hk hk' ht ht' (by decide) (by decide) hin hin').1

/-- A session of slot `0` that listens and reads. -/
def listenRecvClose : List Label :=
  [.call (.open .nsapiTcp) .done .done, .call (.listen 0) .done .done,
    .call (.recv 0 200 10 ⟨0, []⟩) .done .done, .call (.close 0) .done .done]

/-- A session of slot `0` that does nothing, with one firing. -/
def openTick : List Label := [.call (.open .nsapiTcp) .done .done, .tick (dataTick [1, 2, 3])]

/-- After the session that has listened and read, the firing reads for the new session, and stores
bytes in the buffer of the old one. It also does so before the socket is opened again. -/
theorem reused_slot_listenRecvClose :
    (Reachable (fun _ => zeroSlot) (afterSteps listenClose) ∧
      AllEnabled (fun _ _ => True) (afterSteps listenClose) openTick ∧
      outputs 0 (afterSteps (listenClose ++ openTick)).trace =
        outputs 0 (afterSteps listenClose).trace ++ [.ret .socketOpen nsapiErrorOk]) ∧
    (Reachable (fun _ => zeroSlot) (afterSteps listenRecvClose) ∧
      AllEnabled (fun _ _ => True) (afterSteps listenRecvClose) openTick ∧
      outputs 0 (afterSteps (listenRecvClose ++ openTick)).trace =
        outputs 0 (afterSteps listenRecvClose).trace ++ [.ret .socketOpen nsapiErrorOk,
          .modemRecv 0 200 10 3, .store 200 [1, 2, 3], .rxDone 3 false]) ∧
    outputs 0 (afterSteps (listenRecvClose ++ [.tick (dataTick [1, 2, 3])])).trace =
      outputs 0 (afterSteps listenRecvClose).trace ++
        [.modemRecv 0 200 10 3, .store 200 [1, 2, 3], .rxDone 3 false] :=
  ⟨⟨afterSteps_reachable (by decide), by decide, by decide⟩,
    ⟨afterSteps_reachable (by decide), by decide, by decide⟩, by decide⟩

end Bg96
