import BG96Driver.Socket.Carried
import BG96Driver.Socket.Transmit

/-!
# `socket_sendto` and `socket_recvfrom`

`socket_sendto` connects a socket that is not connected to the address of the datagram. On a
connected socket it does not look at the address: the datagram goes to the address of the link.
`socket_recvfrom` reports the stored address.

* `Delivers`: the count that `socket_sendto` returns is of bytes that a link to the address carried.
* `ReportsSender`: links to the sender that `socket_recvfrom` stores carried the bytes that it
  returns.
* `datagrams_addressed`: both hold in every state that is reached by addressed acts, also in a
  call-back, if the address of a connected socket is the one of the datagram.
-/

namespace Bg96

open History Interface

/-! ## Acts of a call -/

def Act.connectAddr : Act → Option SocketAddress
  | .connect addr _ => some addr
  | _ => none

/-- The slot `i` is connected to no address but `addr`. -/
def Stays (i : Slot) (addr : SocketAddress) (k : Slot) (_ : SlotState) (a : Act) : Prop :=
  k = i → ∀ addr' ∈ a.connectAddr, addr' = addr

/-- The slot `i` is not closed. -/
def StaysOpen (i k : Slot) (_ : SlotState) (a : Act) : Prop := k = i → a.isClose = false

instance (i : Slot) (addr : SocketAddress) (k : Slot) (st : SlotState) (a : Act) :
    Decidable (Stays i addr k st a) := inferInstanceAs (Decidable (_ → _))

instance (i k : Slot) (st : SlotState) (a : Act) : Decidable (StaysOpen i k st a) :=
  inferInstanceAs (Decidable (_ → _))

variable {i : Slot} {st : SlotState} {a : Act} {r : Carried} {addr : SocketAddress}
  {s s' : Interface} {s0 : Slot → SlotState} {new : Trace}

theorem Stays.keeps (h : Stays i addr i st a) (haddr : st.sock.addr = addr) :
    (st.step i a).1.sock.addr = addr := by
  by_cases ha : ∀ addr opened, a ≠ .connect addr opened
  · exact (step_addr ha).trans haddr
  · simp only [ne_eq, not_forall, Classical.not_not] at ha
    obtain ⟨addr', opened, rfl⟩ := ha
    obtain rfl := h rfl addr' rfl
    simp only [SlotState.step, connectEnter]
    repeat' split
    all_goals first | rfl | exact haddr

/-- The acts between two states. -/
theorem between (hs : Good s0 s) (hs' : Good s0 s') (hnew : s'.trace = new ++ s.trace) :
    s'.slot = after SlotState.step s.slot new ∧ Honest SlotState.step s.slot new ∧
      Along SlotState.step SlotState.Allowed s.slot new := by
  obtain ⟨-, hreplay, hh, hal⟩ := hs'
  rw [hnew] at hreplay hh hal
  rw [after_append, ← hs.replay] at hreplay
  refine ⟨hreplay, ?_, ?_⟩
  · rw [hs.replay]
    exact (honest_append.mp hh).1
  · rw [hs.replay]
    exact (along_append.mp hal).1

/-- The condition on the acts between two states. -/
theorem along_between {P : Slot → SlotState → Act → Prop} (hs : Good s0 s)
    (hnew : s'.trace = new ++ s.trace) (h : Along SlotState.step P s0 s'.trace) :
    Along SlotState.step P s.slot new := by
  rw [hnew] at h
  rw [hs.replay]
  exact (along_append.mp h).1

theorem put_piece {o : List Out} (s : Interface) :
    (s.put i st a o).trace = [⟨i, a, o⟩] ++ s.trace := rfl

/-- The condition on the acts of a call-back, which is made after the act `a` and followed by the
act `b`. -/
theorem along_callBack {P : Slot → SlotState → Act → Prop} {s₂ : Interface} {b : Act}
    {st' : SlotState} {o o' : List Out} {new₂ : Trace} (hs : Good s0 s)
    (hput : Good s0 (s.put i st a o)) (hnew₂ : s₂.trace = new₂ ++ (s.put i st a o).trace)
    (hnew : (s₂.put i st' b o').trace = new ++ s.trace) (h : Along SlotState.step P s.slot new) :
    Along SlotState.step P (s.put i st a o).slot new₂ := by
  rw [put_trace, hnew₂, put_trace, List.append_cons, ← List.cons_append] at hnew
  obtain rfl := List.append_cancel_right hnew
  rw [(between hs hput (put_piece s)).1]
  exact (along_append.mp h.2).1

/-! ## The call-backs -/

/-- While a call-back of `socket_send` runs, links to `addr` carried the latest transmission. -/
structure Delivering (i : Slot) (addr : SocketAddress) (st : SlotState) (r : Carried) : Prop where
  carried : TxCarried i st r
  stored : st.sock.addr = addr
  sent : SentVia addr r

theorem Delivering.step (h : Delivering i addr st r) (ha : SlotState.Allowed i st a)
    (hadd : Addressed i i st a) (hstay : Stays i addr i st a) :
    Delivering i addr (st.step i a).1 ((sentOver i).run r (st.step i a).2) := by
  obtain ⟨hcarried, hparts⟩ := h.carried.step ha hadd
  refine ⟨hcarried, hstay.keeps h.stored, ?_⟩
  obtain hparts | hsent := hparts
  · exact ⟨by rw [hparts]; exact h.sent.started, by rw [hparts]; exact h.sent.via⟩
  · exact h.stored ▸ hsent

theorem Delivering.along (h : Delivering i addr (s.slot i) (lastSent i s.trace)) (hs : Good s0 s)
    (hs' : Good s0 s') (hnew : s'.trace = new ++ s.trace)
    (hadd : Along SlotState.step (Addressed i) s0 s'.trace)
    (hstay : Along SlotState.step (Stays i addr) s.slot new) :
    Delivering i addr (s'.slot i) (lastSent i s'.trace) := by
  obtain ⟨hslot, hh, hal⟩ := between hs hs' hnew
  rw [hslot, hnew, lastSent_append]
  exact Monitor.run_invariant (P := fun k st a => SlotState.Allowed k st a ∧ Addressed i k st a ∧
      Stays i addr k st a) h (fun _ _ _ h hP => h.step hP.1 hP.2.1 hP.2.2) hh
    (hal.and ((along_between hs hnew hadd).and hstay))

/-- While a call-back of `socket_recv` runs, links to `addr` carried the bytes of the read. -/
structure Reporting (i : Slot) (addr : SocketAddress) (st : SlotState) (r : Carried) : Prop where
  carried : RxCarried i st r
  id : st.sock.id = i.val
  connected : st.sock.connected = true
  stored : st.sock.addr = addr
  received : Received addr st.rx r

theorem Reporting.step (h : Reporting i addr st r) (ha : SlotState.Allowed i st a)
    (hadd : Addressed i i st a) (hstay : Stays i addr i st a) (hopen : StaysOpen i i st a)
    (hpoll : a.isPoll = false) :
    Reporting i addr (st.step i a).1 ((receivedOver i).run r (st.step i a).2) := by
  have hsession : .session ∉ a.sides := by
    cases a with
    | «open» =>
      have hfree : st.sock.id = -1 := ha
      have hid := h.id
      omega
    | close => cases hopen rfl
    | _ => simp [Act.sides]
  obtain ⟨hcarried, hreceived⟩ := h.carried.step ha hadd
  refine ⟨hcarried, (SlotState.step_id hsession).trans h.id,
    (hadd.keeps h.id h.connected hsession).1, hstay.keeps h.stored, ?_⟩
  rw [h.stored] at hreceived
  exact hreceived hpoll h.connected h.received

theorem Reporting.along (h : Reporting i addr (s.slot i) (lastReceived i s.trace))
    (hs : Good s0 s) (hcalls : Calls s0 s s') (hnew : s'.trace = new ++ s.trace)
    (hadd : Along SlotState.step (Addressed i) s0 s'.trace)
    (hstay : Along SlotState.step (Stays i addr) s.slot new)
    (hopen : Along SlotState.step (StaysOpen i) s.slot new) :
    Reporting i addr (s'.slot i) (lastReceived i s'.trace) := by
  obtain ⟨hslot, hh, hal⟩ := between hs hcalls.good hnew
  obtain ⟨new', hnew', hp⟩ := hcalls.new
  obtain rfl : new = new' := List.append_cancel_right (hnew.symm.trans hnew')
  have hpoll : Along SlotState.step (fun _ _ a => a.isPoll = false) s.slot new :=
    along_of_forall fun e he _ _ => hp e he
  rw [hslot, hnew, lastReceived_append]
  exact Monitor.run_invariant (P := fun k st a => SlotState.Allowed k st a ∧ Addressed i k st a ∧
      Stays i addr k st a ∧ StaysOpen i k st a ∧ a.isPoll = false) h
    (fun _ _ _ h hP => h.step hP.1 hP.2.1 hP.2.2.1 hP.2.2.2.1 hP.2.2.2.2) hh
    (hal.and ((along_between hs hnew hadd).and (hstay.and (hopen.and hpoll))))

/-! ## The calls -/

/-- The count `n`, returned after the acts `h`, is of bytes that links to `addr` carried. -/
def Delivers (i : Slot) (addr : SocketAddress) (h : Trace) (n : Int) : Prop :=
  n = toInt (partBytes (lastSent i h).parts % 2 ^ 32) ∧ SentVia addr (lastSent i h)

theorem lastSent_put (o : List Out) :
    lastSent i (s.put i st a o).trace = (sentOver i).run (lastSent i s.trace) o := by
  rw [put_piece, lastSent_append]
  simp [outputs]

theorem lastReceived_put (o : List Out) :
    lastReceived i (s.put i st a o).trace = (receivedOver i).run (lastReceived i s.trace) o := by
  rw [put_piece, lastReceived_append]
  simp [outputs]

theorem TxCarried.delivers {h : Trace} {n : Int} (htx : TxCarried i st (lastSent i h))
    (hsent : SentVia addr (lastSent i h)) (hn : n = toInt st.tx.mTxTotalSent) :
    Delivers i addr h n := by
  refine ⟨?_, hsent⟩
  rw [hn, htx.total hsent.started]

/-- What `socket_send` returns at once. -/
theorem SocketSendCase.ret_total {sock : Bg96Socket} {tx tx' : TxEvent} {data size : Nat}
    {done : Bool} {o : List Out} {n : Int}
    (hc : SocketSendCase sock tx data size done tx' o (.ret n)) (hn : 0 < n) :
    n = toInt tx'.mTxTotalSent := by
  generalize hnext : Next.ret n = next at hc
  cases hc with
  | refuse m hm =>
    cases hnext
    omega
  | collect | sync =>
    cases hnext
    rfl
  | block | callBack => cases hnext

/-- **`socket_send`** on a socket whose stored address is `addr`. -/
theorem socketSend_delivers {raw : Slot → SlotState} {onData : Interface → Interface}
    {data size : Nat} {done : Bool} {n : Int} (hs : Good (ctor raw).slot s)
    (hd : MakesCalls (ctor raw).slot onData)
    (hsend : s.socketSend onData i data size done = (s', n)) (hnew : s'.trace = new ++ s.trace)
    (hadd : Along SlotState.step (Addressed i) (ctor raw).slot s'.trace)
    (hstay : Along SlotState.step (Stays i addr) s.slot new) (haddr : (s.gSock i).addr = addr)
    (hn : 0 < n) : Delivers i addr s'.trace n := by
  have hcalls : Calls (ctor raw).slot s (s.socketSend onData i data size done).1 :=
    socketSend_calls hd i data size done s hs
  rw [hsend] at hcalls
  obtain ⟨htx, -⟩ := carried_along hcalls.good hadd
  unfold socketSend at hsend
  split at hsend
  · cases hsend
    cases hn
  · rename_i k hk
    obtain ⟨rfl, hid⟩ := hs.tableIndex hk
    rcases he : sendEnter (s.gSock k) (s.gSocTx k) data size done with ⟨tx, out, next⟩
    have hput := hs.put (a := .send data size done) hid (step_send he)
    have hc := sendEnter_cases he
    -- up to the call-back
    have hmid (hmid : Along SlotState.step (Addressed k) (ctor raw).slot
        (⟨k, .send data size done, out⟩ :: s.trace)) :
        (∃ m ≤ 0, next = .ret m) ∨
          SentVia addr ((sentOver k).run (lastSent k s.trace) out) := by
      obtain ⟨htx₀, -⟩ := carried_along hs hmid.2
      obtain ⟨hmid₁, -⟩ := carried_along hput hmid
      rw [put_slot, Function.update_self, lastSent_put] at hmid₁
      have hconn : 1 ≤ size → data ≠ 0 → (s.slot k).tx.mTxState = .txIdle →
          (s.slot k).sock.connected = true := by
        rw [hs.replay]
        exact hmid.1 rfl
      obtain ⟨-, ⟨-, hret⟩ | hsent⟩ := hc.carried htx₀ hid hconn hmid₁.addr
      · exact .inl hret
      · exact .inr (haddr ▸ hsent)
    simp only [he] at hsend
    cases next with
    | schedule m =>
      cases hsend
      cases hc
      cases hn
    | ret m =>
      cases hsend
      obtain ⟨m', hm', heq⟩ | hsent := hmid hadd
      · cases heq
        omega
      · rw [← lastSent_put] at hsent
        refine htx.delivers hsent ?_
        rw [put_slot, Function.update_self]
        exact hc.ret_total hn
    | callBack =>
      cases hsend
      have hcb := hd _ hput
      obtain ⟨new₂, hnew₂, -⟩ := hcb.new
      have hadd₂ := hadd.2
      have haddm := (along_append.mp (hnew₂ ▸ hadd₂)).2
      have hstay₂ := along_callBack hs hput hnew₂ hnew hstay
      have hd₁ : Delivering k addr _ _ := {
        carried := (carried_along hput haddm).1
        stored := by
          rw [put_slot, Function.update_self]
          exact haddr
        sent := by
          rw [lastSent_put]
          exact (hmid haddm).resolve_left (by rintro ⟨_, -, h⟩; cases h) }
      obtain ⟨-, -, hne, hvia⟩ := hd₁.along hput hcb.good hnew₂ hadd₂ hstay₂
      refine htx.delivers ?_ ?_
      · rw [lastSent_put, sentOver_leave]
        exact ⟨hne, hvia⟩
      · rw [put_slot, Function.update_self]
        rfl

/-- The stored address of a slot that is connected to no other one. -/
theorem addr_between (hs : Good s0 s) (hs' : Good s0 s') (hnew : s'.trace = new ++ s.trace)
    (hstay : Along SlotState.step (Stays i addr) s.slot new) (haddr : (s.gSock i).addr = addr) :
    (s'.gSock i).addr = addr := by
  rw [gSock, (between hs hs' hnew).1]
  exact along_invariant (I := fun st : SlotState => st.sock.addr = addr) haddr
    (fun _ _ h hstay => hstay.keeps h) hstay

variable {opened : Nat → Bool}

theorem connectEnter_next (sock : Bg96Socket) (addr : SocketAddress) (opened : Nat → Bool) :
    (connectEnter sock addr opened).2.2 = .ret nsapiErrorDeviceError ∨
      (connectEnter sock addr opened).1.addr = addr ∧
        ((connectEnter sock addr opened).2.2 = .ret nsapiErrorOk ∨
          (connectEnter sock addr opened).2.2 = .callBack) := by
  simp only [connectEnter]
  repeat' split
  · exact .inr ⟨rfl, .inr rfl⟩
  · exact .inr ⟨rfl, .inl rfl⟩
  · exact .inl rfl

/-- `socket_connect` returns an error, or the address is stored when it returns. -/
theorem socketConnect_addr {onConnect : Interface → Interface} {n : Int} (hs : Good s0 s)
    (hc : MakesCalls s0 onConnect) (hconnect : s.socketConnect onConnect i addr opened = (s', n))
    (hnew : s'.trace = new ++ s.trace) (hstay : Along SlotState.step (Stays i addr) s.slot new) :
    n = nsapiErrorDeviceError ∨ n = nsapiErrorOk ∧ (s'.gSock i).addr = addr := by
  have hcalls : Calls s0 s (s.socketConnect onConnect i addr opened).1 :=
    socketConnect_calls hc i addr opened s hs
  rw [hconnect] at hcalls
  rcases he : connectEnter (s.gSock i) addr opened with ⟨sock, out, next⟩
  have hst : (s.slot i).step i (.connect addr opened) = ({ s.slot i with sock := sock }, out) := by
    simp only [gSock] at he
    simp only [SlotState.step, he]
  have hput := hs.put (a := .connect addr opened) trivial hst
  have hcase := connectEnter_next (s.gSock i) addr opened
  simp only [socketConnect, he] at hconnect hcase
  obtain rfl | ⟨haddr, hnext⟩ := hcase
  · cases hconnect
    exact .inl rfl
  · have hmid : ((s.put i { s.slot i with sock := sock } (.connect addr opened) out).gSock i).addr =
        addr := by
      rw [gSock, put_slot, Function.update_self]
      exact haddr
    obtain rfl | rfl := hnext
    · cases hconnect
      exact .inr ⟨rfl, hmid⟩
    · cases hconnect
      have hcb := hc _ hput
      obtain ⟨new₂, hnew₂, -⟩ := hcb.new
      have hstay₂ := along_callBack hs hput hnew₂ hnew hstay
      refine .inr ⟨rfl, ?_⟩
      rw [gSock, put_slot, Function.update_self]
      exact addr_between hput hcb.good hnew₂ hstay₂ hmid

/-- The address that a datagram to `addr` goes to. -/
def destination (s : Interface) (i : Slot) (addr : SocketAddress) : SocketAddress :=
  if (s.gSock i).connected then (s.gSock i).addr else addr

/-- **`socket_sendto`.** Links to the destination carried the bytes for which it returns a positive
count. -/
theorem socketSendto_delivers {raw : Slot → SlotState} {onConnect onData : Interface → Interface}
    {data size : Nat} {done : Bool} {n : Int} (hs : Good (ctor raw).slot s)
    (hc : MakesCalls (ctor raw).slot onConnect) (hd : MakesCalls (ctor raw).slot onData)
    (hsend : s.socketSendto onConnect onData i addr opened data size done = (s', n))
    (hnew : s'.trace = new ++ s.trace)
    (hadd : Along SlotState.step (Addressed i) (ctor raw).slot s'.trace)
    (hstay : Along SlotState.step (Stays i (destination s i addr)) s.slot new) (hn : 0 < n) :
    Delivers i (destination s i addr) s'.trace n := by
  unfold socketSendto at hsend
  by_cases hcon : (s.gSock i).connected = true
  · simp only [hcon, Bool.not_true, Bool.false_eq_true, ↓reduceIte, ne_eq, not_true_eq_false]
      at hsend
    exact socketSend_delivers hs hd hsend hnew hadd hstay (if_pos hcon).symm hn
  · rw [show destination s i addr = addr from if_neg hcon] at hstay ⊢
    rcases he : s.socketConnect onConnect i addr opened with ⟨s₁, err⟩
    simp only [hcon, Bool.not_false, ↓reduceIte, he] at hsend
    have h₁ : Calls (ctor raw).slot s (s.socketConnect onConnect i addr opened).1 :=
      socketConnect_calls hc i addr opened s hs
    rw [he] at h₁
    obtain ⟨new₁, hnew₁, -⟩ := h₁.new
    by_cases herr : err = nsapiErrorOk
    · simp only [herr, ne_eq, not_true_eq_false, ↓reduceIte] at hsend
      have h₂ : Calls (ctor raw).slot s₁ (s₁.socketSend onData i data size done).1 :=
        socketSend_calls hd i data size done s₁ h₁.good
      rw [hsend] at h₂
      obtain ⟨new₂, hnew₂, -⟩ := h₂.new
      rw [hnew₂, hnew₁, ← List.append_assoc] at hnew
      obtain rfl := List.append_cancel_right hnew
      obtain ⟨hstay₂, hstay₁⟩ := along_append.mp hstay
      rw [← (between hs h₁.good hnew₁).1] at hstay₂
      obtain herr' | ⟨-, haddr⟩ := socketConnect_addr hs hc he hnew₁ hstay₁
      · rw [herr] at herr'
        cases herr'
      · exact socketSend_delivers h₁.good hd hsend hnew₂ hadd hstay₂ haddr hn
    · simp only [ne_eq, herr, not_false_eq_true, ↓reduceIte] at hsend
      cases hsend
      obtain rfl | ⟨rfl, -⟩ := socketConnect_addr hs hc he hnew hstay <;> cases hn

/-- A positive count is of some bytes. -/
theorem Delivers.bytes {h : Trace} {n : Int} (hdel : Delivers i addr h n) (hn : 0 < n) :
    ∃ p ∈ (lastSent i h).parts, 0 < p.2 := by
  by_contra hno
  have hzero : partBytes (lastSent i h).parts = 0 := by
    rw [partBytes, List.sum_eq_zero_iff_forall_eq_nat]
    intro n hn
    obtain ⟨p, hp, rfl⟩ := List.mem_map.mp hn
    exact Nat.eq_zero_of_not_pos fun hpos => hno ⟨p, hp, hpos⟩
  rw [hdel.1, hzero] at hn
  cases hn

/-- The bytes were carried to one address only. -/
theorem Delivers.unique {h : Trace} {n : Int} {addr' : SocketAddress} (hdel : Delivers i addr h n)
    (hdel' : Delivers i addr' h n) (hn : 0 < n) : addr = addr' := by
  obtain ⟨p, hp, hpos⟩ := hdel.bytes hn
  exact Option.some.inj ((hdel.2.via p hp hpos).symm.trans (hdel'.2.via p hp hpos))

/-! ## `socket_recvfrom` -/

/-- What `socket_recv` returns at once. -/
theorem SocketRecvCase.ret_count {sock : Bg96Socket} {rx rx' : RxEvent} {data size : Nat}
    {res : RecvResult} {o : List Out} {n : Int}
    (hc : SocketRecvCase sock rx data size res rx' o (.ret n)) (hn : 0 < n) :
    n = toInt rx'.mRxReturnCnt := by
  generalize hnext : Next.ret n = next at hc
  cases hc with
  | refuse m hm =>
    cases hnext
    omega
  | collect | sync =>
    cases hnext
    rfl
  | block | callBack => cases hnext

theorem pos_of_toInt {n : Nat} (h : 0 < toInt n) : 0 < n := by
  unfold toInt at h
  split at h <;> omega

/-- **`socket_recv`** on a connected socket whose stored address is `addr`. -/
theorem socketRecv_received {raw : Slot → SlotState} {onData : Interface → Interface}
    {data size : Nat} {res : RecvResult} {n : Int} (hs : Good (ctor raw).slot s)
    (hd : MakesCalls (ctor raw).slot onData)
    (hrecv : s.socketRecv onData i data size res = (s', n)) (hnew : s'.trace = new ++ s.trace)
    (hadd : Along SlotState.step (Addressed i) (ctor raw).slot s'.trace)
    (hstay : Along SlotState.step (Stays i addr) s.slot new)
    (hopen : Along SlotState.step (StaysOpen i) s.slot new)
    (hconn : (s.gSock i).connected = true) (haddr : (s.gSock i).addr = addr) (hn : 0 < n) :
    ∃ rx, 0 < rx.mRxReturnCnt ∧ Received addr rx (lastReceived i s'.trace) := by
  unfold socketRecv at hrecv
  split at hrecv
  · cases hrecv
    cases hn
  · rename_i k hk
    obtain ⟨rfl, hid⟩ := hs.tableIndex hk
    rcases he : recvEnter (s.gSock k) (s.gSocRx k) data size res with ⟨rx, out, next⟩
    have hput := hs.put (a := .recv data size res) hid (step_recv he)
    have hc := recvEnter_cases he
    -- up to the call-back
    have hmid (hmid : Along SlotState.step (Addressed k) (ctor raw).slot
        (⟨k, .recv data size res, out⟩ :: s.trace)) :
        (∃ m ≤ 0, next = .ret m) ∨
          Received addr rx ((receivedOver k).run (lastReceived k s.trace) out) := by
      obtain ⟨-, hrx₀⟩ := carried_along hs hmid.2
      obtain ⟨-, hmid₁⟩ := carried_along hput hmid
      rw [put_slot, Function.update_self, lastReceived_put] at hmid₁
      obtain ⟨-, ⟨-, -, hret⟩ | hgot⟩ := hc.carried hrx₀ hid hmid₁.addr
      · exact .inl hret
      · exact .inr (haddr ▸ hgot hconn)
    simp only [he] at hrecv
    cases next with
    | schedule m =>
      cases hrecv
      cases hc
      cases hn
    | ret m =>
      cases hrecv
      obtain ⟨m', hm', heq⟩ | hgot := hmid hadd
      · cases heq
        omega
      · rw [hc.ret_count hn] at hn
        rw [lastReceived_put]
        exact ⟨rx, pos_of_toInt hn, hgot⟩
    | callBack =>
      cases hrecv
      have hcb := hd _ hput
      obtain ⟨new₂, hnew₂, -⟩ := hcb.new
      have hadd₂ := hadd.2
      have haddm := (along_append.mp (hnew₂ ▸ hadd₂)).2
      have hstay₂ := along_callBack hs hput hnew₂ hnew hstay
      have hopen₂ := along_callBack hs hput hnew₂ hnew hopen
      have hd₁ : Reporting k addr _ _ := {
        carried := (carried_along hput haddm).2
        id := by
          rw [put_slot, Function.update_self]
          exact hid
        connected := by
          rw [put_slot, Function.update_self]
          exact hconn
        stored := by
          rw [put_slot, Function.update_self]
          exact haddr
        received := by
          rw [lastReceived_put, put_slot, Function.update_self]
          exact (hmid haddm).resolve_left (by rintro ⟨_, -, h⟩; cases h) }
      obtain ⟨-, -, -, -, hgot⟩ := hd₁.along hput hcb hnew₂ hadd₂ hstay₂ hopen₂
      rw [lastReceived_put, receivedOver_leave]
      exact ⟨_, pos_of_toInt hn, hgot.frame rfl rfl⟩

/-- `socket_recvfrom`, called in `s`, has stored a sender, and links to it carried the bytes that it
returns in `s'`: there are some. -/
def ReportsSender (i : Slot) (s s' : Interface) : Prop :=
  ∃ sender new, s'.trace = new ++ ⟨i, .recvfrom, [.sender sender]⟩ :: s.trace ∧
    (∃ p ∈ (lastReceived i s'.trace).parts, 0 < p.2) ∧ Via sender (lastReceived i s'.trace).parts

/-- **`socket_recvfrom`** reports the stored address, and a link to it has carried the bytes. -/
theorem socketRecvfrom_reports {raw : Slot → SlotState} {onData : Interface → Interface}
    {data size : Nat} {res : RecvResult} {n : Int} (hs : Good (ctor raw).slot s)
    (hd : MakesCalls (ctor raw).slot onData)
    (hrecv : s.socketRecvfrom onData i data size res = (s', n)) (hnew : s'.trace = new ++ s.trace)
    (hadd : Along SlotState.step (Addressed i) (ctor raw).slot s'.trace)
    (hstay : Along SlotState.step (Stays i (s.gSock i).addr) s.slot new)
    (hopen : Along SlotState.step (StaysOpen i) s.slot new) (hn : 0 < n) :
    ReportsSender i s s' := by
  unfold socketRecvfrom at hrecv
  by_cases hcon : (s.gSock i).connected = true
  · simp only [hcon, Bool.not_true, Bool.false_eq_true, ↓reduceIte] at hrecv
    have hput := hs.put (a := .recvfrom) trivial (step_recvfrom hcon)
    have hcalls : Calls (ctor raw).slot _ (socketRecv onData (s.put i (s.slot i) .recvfrom
        [.sender (s.gSock i).addr]) i data size res).1 :=
      socketRecv_calls hd i data size res _ hput
    rw [hrecv] at hcalls
    obtain ⟨new₂, hnew₂, -⟩ := hcalls.new
    rw [hnew₂, put_trace, List.append_cons] at hnew
    obtain rfl := List.append_cancel_right hnew
    have hstay₂ := (along_append.mp hstay).1
    have hopen₂ := (along_append.mp hopen).1
    rw [← (between hs hput rfl).1] at hstay₂ hopen₂
    have hsock : (s.put i (s.slot i) .recvfrom [.sender (s.gSock i).addr]).gSock i = s.gSock i := by
      rw [gSock, put_slot, Function.update_self]
      rfl
    obtain ⟨rx, hpos, hvia, hbytes⟩ := socketRecv_received hput hd hrecv hnew₂ hadd hstay₂ hopen₂
      (hsock ▸ hcon) (by rw [hsock]) hn
    exact ⟨_, new₂, hnew₂, hbytes hpos, hvia⟩
  · simp only [hcon, Bool.not_false, ↓reduceIte] at hrecv
    cases hrecv
    cases hn

/-! ## Datagrams -/

/-- **Datagrams go where they are addressed.** Take a state that the interface reaches with acts of
the sockets, between two steps of a run (`Reachable.good`) or in a call-back, and a call that
returns a positive count; all the acts up to its end are addressed for the slot `i`, and the
call-backs of the call connect the socket to no other address. Links to the address of the datagram
carried the bytes that `socket_sendto` counts if and only if it finds the socket not connected, or
connected to this address. If its call-backs do not close the socket, `socket_recvfrom` reports a
sender, and links to the sender carried the bytes that it returns. -/
theorem datagrams_addressed {raw : Slot → SlotState} {s s' : Interface} {i : Slot} {new : Trace}
    {n : Int} (hs : Good (ctor raw).slot s) (hnew : s'.trace = new ++ s.trace)
    (hadd : Along SlotState.step (Addressed i) (ctor raw).slot s'.trace) (hn : 0 < n)
    (onConnect onData : Script) :
    (∀ addr opened data size done,
      exec onConnect.run onData.run s (.sendto i addr opened data size done) = (s', n) →
      Along SlotState.step (Stays i (destination s i addr)) s.slot new →
      (Delivers i addr s'.trace n ↔
        ((s.gSock i).connected = true → (s.gSock i).addr = addr))) ∧
    ∀ data size res,
      exec onConnect.run onData.run s (.recvfrom i data size res) = (s', n) →
      Along SlotState.step (Stays i (s.gSock i).addr) s.slot new →
      Along SlotState.step (StaysOpen i) s.slot new → ReportsSender i s s' := by
  refine ⟨fun addr opened data size done hsend hstay => ?_, fun data size res hrecv hstay hopen =>
    socketRecvfrom_reports hs (Script.calls onData) hrecv hnew hadd hstay hopen hn⟩
  have hdel := socketSendto_delivers hs (Script.calls onConnect) (Script.calls onData) hsend hnew
    hadd hstay hn
  constructor
  · intro hdel' hcon
    rw [← hdel.unique hdel' hn, destination, if_pos hcon]
  · intro hto
    have hdest : destination s i addr = addr := by
      rw [destination]
      split
      · rename_i hcon
        exact hto hcon
      · rfl
    rwa [hdest] at hdel

def openUdp : List Label := [.call (.open .nsapiUdp) .done .done]

/-- A datagram to `10.0.0.1`, on a new socket. -/
def firstDatagram : List Label :=
  openUdp ++ [.call (.sendto 0 ⟨"10.0.0.1", 7⟩ (fun _ => true) 100 5 true) .done .done]

/-- The datagram, and an answer of three bytes. -/
def datagramAnswer : List Label :=
  firstDatagram ++ [.call (.recvfrom 0 200 10 ⟨3, [1, 2, 3]⟩) .done .done]

theorem datagrams_addressed_answer :
    Delivers 0 ⟨"10.0.0.1", 7⟩ (afterSteps firstDatagram).trace 5 ∧
      ReportsSender 0 (afterSteps firstDatagram) (afterSteps datagramAnswer) := by
  have hopen : Reachable _ (afterSteps openUdp) := afterSteps_reachable (by decide)
  have hfirst : Reachable _ (afterSteps firstDatagram) := afterSteps_reachable (by decide)
  constructor
  · have h := datagrams_addressed hopen.good
      (show (afterSteps firstDatagram).trace =
        (afterSteps firstDatagram).trace.take 2 ++ (afterSteps openUdp).trace from rfl)
      (i := 0) (n := 5) (by decide) (by decide) .done .done
    exact (h.1 ⟨"10.0.0.1", 7⟩ (fun _ => true) 100 5 true rfl (by decide)).mpr (by decide)
  · have h := datagrams_addressed hfirst.good
      (show (afterSteps datagramAnswer).trace =
        (afterSteps datagramAnswer).trace.take 2 ++ (afterSteps firstDatagram).trace from rfl)
      (i := 0) (n := 3) (by decide) (by decide) .done .done
    exact h.2 200 10 ⟨3, [1, 2, 3]⟩ rfl (by decide) (by decide)

/-- A second datagram, to `10.0.0.2`, goes to `10.0.0.1`. -/
theorem datagrams_addressed_second :
    ¬ ∀ raw s, Reachable raw s → ∀ i, (s.gSock i).id = i.val → (s.gSock i).proto = .nsapiUdp →
      ∀ addr opened data size done s' n,
        exec Script.done.run Script.done.run s (.sendto i addr opened data size done) = (s', n) →
        0 < n → Delivers i addr s'.trace n := by
  intro h
  have hreach : Reachable _ (afterSteps firstDatagram) := afterSteps_reachable (by decide)
  obtain ⟨-, -, hvia⟩ := h _ _ hreach 0 (by decide) (by decide) ⟨"10.0.0.2", 7⟩ (fun _ => true)
    200 5 true _ 5 rfl (by decide)
  have hpart := hvia (some ⟨"10.0.0.1", 7⟩, 5) (by decide) (by decide)
  revert hpart
  decide

end Bg96
