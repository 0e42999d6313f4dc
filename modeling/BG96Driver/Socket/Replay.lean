import BG96Driver.Socket.Interface

/-!
# The interface replays its sockets

`Good`: the sockets' records are what `SlotState.step` makes of the recorded acts, the acts show
what the trace says, and each of them was `Allowed` in the state before it. It holds in every
reachable state (`Reachable.good`), so a law of one socket's machine is a law of the interface.

`Calls s s'`: `s'` comes from `s` by calls of the socket interface. Such a piece of a run adds no
turn of `g_eq_event`'s first loop to the trace (`Act.isPoll`), every call-back that it makes has
ended (`frames`), and it schedules an event if it starts a transfer (`live`). The induction over
the scripts of nested call-backs is done here once (`Script.calls`).
-/

namespace Bg96

open History

/-- A turn of the first loop of `g_eq_event`. -/
def Act.isPoll : Act → Bool
  | .poll .. => true
  | _ => false

namespace SlotState

/-- A transfer of the socket waits for `g_eq_event`. -/
def Busy (st : SlotState) : Prop := st.tx.mTxState = .txActive ∨ st.rx.mRxState = .readActive

theorem step_id_or {i : Slot} {st : SlotState} (h : st.sock.id = -1 ∨ st.sock.id = i.val)
    (a : Act) : (st.step i a).1.sock.id = -1 ∨ (st.step i a).1.sock.id = i.val := by
  cases a with
  | «open» => exact .inr rfl
  | close => exact .inl rfl
  | _ => rw [step_id (by simp [Act.sides])]; exact h

end SlotState

/-- Only a `socket_send` that schedules an event starts a transmission that waits for one. -/
theorem SocketSendCase.active {sock : Bg96Socket} {tx tx' : TxEvent} {data size : Nat} {done : Bool}
    {out : List Out} {next : Next} (h : SocketSendCase sock tx data size done tx' out next)
    (hn : ∀ n, next ≠ .schedule n) (ht : tx'.mTxState = .txActive) : tx.mTxState = .txActive := by
  cases h with
  | refuse => exact ht
  | block => exact absurd rfl (hn _)
  | collect | callBack | sync => cases ht

theorem SocketRecvCase.active {sock : Bg96Socket} {rx rx' : RxEvent} {data size : Nat}
    {res : RecvResult}
    {out : List Out} {next : Next} (h : SocketRecvCase sock rx data size res rx' out next)
    (hn : ∀ n, next ≠ .schedule n) (ht : rx'.mRxState = .readActive) :
    rx.mRxState = .readActive := by
  cases h with
  | refuse => exact ht
  | block => exact absurd rfl (hn _)
  | collect | callBack | sync => cases ht

namespace Interface

variable {s s' : Interface} {s0 : Slot → SlotState} {h i : Slot} {a : Act} {out : List Out}
  {st : SlotState}

@[simp] theorem put_slot : (s.put i st a out).slot = Function.update s.slot i st := rfl

@[simp] theorem put_trace : (s.put i st a out).trace = ⟨i, a, out⟩ :: s.trace := rfl

@[simp] theorem eqSchedule_slot : s.eqSchedule.slot = s.slot := by
  unfold eqSchedule; split <;> rfl

@[simp] theorem eqSchedule_trace : s.eqSchedule.trace = s.trace := by
  unfold eqSchedule; split <;> rfl

theorem eqSchedule_put : (s.put i st a out).eqSchedule = s.eqSchedule.put i st a out := by
  unfold eqSchedule put; dsimp only; split <;> rfl

theorem eqSchedule_pos : 0 < s.eqSchedule.scheduledEvents := by
  unfold eqSchedule; split <;> simp_all only [bg96SocketCount] <;> omega

theorem tableIndex_val : tableIndex (h.val : Int) = some h := by
  unfold tableIndex
  rw [dif_pos ⟨by omega, by exact_mod_cast h.isLt⟩]
  simp

/-- The sockets' records replay the trace. -/
structure Good (s0 : Slot → SlotState) (s : Interface) : Prop where
  id : ∀ i, (s.slot i).sock.id = -1 ∨ (s.slot i).sock.id = i.val
  replay : s.slot = after SlotState.step s0 s.trace
  honest : Honest SlotState.step s0 s.trace
  allowed : Along SlotState.step SlotState.Allowed s0 s.trace

/-- The table index of a handle is its own index, and the handle is open. -/
theorem Good.tableIndex (hs : Good s0 s) (hi : tableIndex (s.gSock h).id = some i) :
    i = h ∧ (s.slot h).sock.id = h.val := by
  rcases hs.id h with hid | hid
  · unfold gSock at hi; rw [hid] at hi; cases hi
  · unfold gSock at hi; rw [hid, tableIndex_val, Option.some.injEq] at hi
    exact ⟨hi.symm, hid⟩

theorem Good.put (hs : Good s0 s) (ha : SlotState.Allowed i (s.slot i) a)
    (hst : (s.slot i).step i a = (st, out)) : Good s0 (s.put i st a out) := by
  have h1 : st = ((s.slot i).step i a).1 := by rw [hst]
  have h2 : out = ((s.slot i).step i a).2 := by rw [hst]
  refine ⟨fun j => ?_, ?_, ⟨?_, hs.honest⟩, ⟨?_, hs.allowed⟩⟩
  · by_cases hj : j = i
    · subst hj; rw [put_slot, Function.update_self, h1]; exact SlotState.step_id_or (hs.id j) a
    · rw [put_slot, Function.update_of_ne hj]; exact hs.id j
  · rw [put_slot, put_trace, after, ← hs.replay, ← h1]
  · rw [← hs.replay]; exact h2
  · rw [← hs.replay]; exact ha

theorem Good.eqSchedule (hs : Good s0 s) : Good s0 s.eqSchedule where
  id := by simpa using hs.id
  replay := by simpa using hs.replay
  honest := by simpa using hs.honest
  allowed := by simpa using hs.allowed

/-- `s'` replays the trace, which has grown by acts that are not polls. -/
structure Grows (s0 : Slot → SlotState) (s s' : Interface) : Prop where
  good : Good s0 s'
  new : ∃ new, s'.trace = new ++ s.trace ∧ ∀ e ∈ new, e.inp.isPoll = false

/-- The events of `s'` are those of `s` and others that were scheduled: one if a transfer has
started. -/
structure Schedules (s s' : Interface) : Prop where
  queue : s.scheduledEvents = s.bg96Queue ∧ s.scheduledEvents ≤ bg96SocketCount →
    s'.scheduledEvents = s'.bg96Queue ∧ s'.scheduledEvents ≤ bg96SocketCount
  le : s.scheduledEvents ≤ s'.scheduledEvents
  live : 0 < s'.scheduledEvents ∨ ∀ i, (s'.slot i).Busy → (s.slot i).Busy

/-- `s'` comes from `s` by calls, and every call-back that they made has ended. -/
structure Calls (s0 : Slot → SlotState) (s s' : Interface) : Prop extends
    Grows s0 s s', Schedules s s' where
  frames : ∀ i, (s'.slot i).inSend = (s.slot i).inSend ∧ (s'.slot i).inRecv = (s.slot i).inRecv

/-- What every act but a poll keeps of a socket holds after a piece of a run without polls. -/
theorem Grows.keeps {I : SlotState → Prop} (hs : Good s0 s) (h : Grows s0 s s')
    (hI : ∀ i st a, a.isPoll = false → I st → I (st.step i a).1) (j : Slot) (hj : I (s.slot j)) :
    I (s'.slot j) := by
  obtain ⟨new, he, hn⟩ := h.new
  rw [h.good.replay, he, after_append, ← hs.replay]
  exact along_invariant (P := fun _ _ a => a.isPoll = false) hj
    (fun st a hst ha => hI j st a ha hst) (along_of_forall fun e he _ _ => hn e he)

theorem Grows.refl (hs : Good s0 s) : Grows s0 s s := ⟨hs, [], rfl, by simp⟩

theorem Grows.trans {s'' : Interface} (h₁ : Grows s0 s s') (h₂ : Grows s0 s' s'') :
    Grows s0 s s'' := by
  obtain ⟨n₁, e₁, p₁⟩ := h₁.new
  obtain ⟨n₂, e₂, p₂⟩ := h₂.new
  refine ⟨h₂.good, n₂ ++ n₁, by rw [e₂, e₁, List.append_assoc], fun e he => ?_⟩
  rcases List.mem_append.mp he with he | he
  · exact p₂ e he
  · exact p₁ e he

theorem Grows.eqSchedule (h : Grows s0 s s') : Grows s0 s s'.eqSchedule :=
  ⟨h.good.eqSchedule, by simpa using h.new⟩

theorem Grows.put (hs : Grows s0 s s') (hp : a.isPoll = false)
    (ha : SlotState.Allowed i (s'.slot i) a) (hst : (s'.slot i).step i a = (st, out)) :
    Grows s0 s (s'.put i st a out) := by
  obtain ⟨new, he, hn⟩ := hs.new
  refine ⟨hs.good.put ha hst, ⟨i, a, out⟩ :: new, by rw [put_trace, he]; rfl, fun e he => ?_⟩
  rcases List.mem_cons.mp he with rfl | he
  · exact hp
  · exact hn e he

theorem Schedules.refl : Schedules s s := ⟨id, le_rfl, .inr fun _ => id⟩

theorem Schedules.trans {s'' : Interface} (h₁ : Schedules s s') (h₂ : Schedules s' s'') :
    Schedules s s'' := by
  refine ⟨fun h => h₂.queue (h₁.queue h), h₁.le.trans h₂.le, ?_⟩
  rcases h₂.live with h | h
  · exact .inl h
  · rcases h₁.live with h' | h'
    · exact .inl (Nat.lt_of_lt_of_le h' h₂.le)
    · exact .inr fun i hi => h' i (h i hi)

theorem Schedules.eqSchedule (h : Schedules s s') : Schedules s s'.eqSchedule := by
  refine ⟨fun hq => ?_, ?_, .inl eqSchedule_pos⟩
  · obtain ⟨h1, h2⟩ := h.queue hq
    unfold Interface.eqSchedule
    split
    · rename_i hlt
      exact ⟨congrArg (· + 1) h1, hlt⟩
    · exact ⟨h1, h2⟩
  · unfold Interface.eqSchedule
    split
    · exact Nat.le_succ_of_le h.le
    · exact h.le

/-- An act that starts no transfer. -/
theorem Schedules.put (h : Schedules s s') (hb : st.Busy → (s'.slot i).Busy) :
    Schedules s (s'.put i st a out) := by
  refine ⟨h.queue, h.le, ?_⟩
  rcases h.live with h | h
  · exact .inl h
  · refine .inr fun j hj => h j ?_
    by_cases hji : j = i
    · subst hji; rw [put_slot, Function.update_self] at hj; exact hb hj
    · rwa [put_slot, Function.update_of_ne hji] at hj

/-- An act that starts a transfer, and the event that it schedules. -/
theorem Schedules.putSchedule (h : Schedules s s') :
    Schedules s (s'.put i st a out).eqSchedule := by
  rw [eqSchedule_put]
  exact ⟨h.eqSchedule.queue, h.eqSchedule.le, .inl eqSchedule_pos⟩

theorem Calls.refl (hs : Good s0 s) : Calls s0 s s :=
  ⟨.refl hs, .refl, fun _ => ⟨rfl, rfl⟩⟩

theorem Calls.trans {s'' : Interface} (h₁ : Calls s0 s s') (h₂ : Calls s0 s' s'') :
    Calls s0 s s'' :=
  ⟨h₁.toGrows.trans h₂.toGrows, h₁.toSchedules.trans h₂.toSchedules, fun i =>
    ⟨(h₂.frames i).1.trans (h₁.frames i).1, (h₂.frames i).2.trans (h₁.frames i).2⟩⟩

theorem Calls.eqSchedule (h : Calls s0 s s') : Calls s0 s s'.eqSchedule :=
  ⟨h.toGrows.eqSchedule, h.toSchedules.eqSchedule, by simpa using h.frames⟩

theorem frames_update (hs : ∀ j, (s'.slot j).inSend = (s.slot j).inSend ∧
      (s'.slot j).inRecv = (s.slot j).inRecv)
    (hS : st.inSend = (s'.slot i).inSend) (hR : st.inRecv = (s'.slot i).inRecv) (j : Slot) :
    (Function.update s'.slot i st j).inSend = (s.slot j).inSend ∧
      (Function.update s'.slot i st j).inRecv = (s.slot j).inRecv := by
  by_cases hj : j = i
  · subst hj
    rw [Function.update_self, hS, hR]; exact hs j
  · rw [Function.update_of_ne hj]; exact hs j

/-- An act that makes or ends no call-back of a transfer, and starts no transfer. -/
theorem Calls.put (hs : Calls s0 s s') (hp : a.isPoll = false)
    (ha : SlotState.Allowed i (s'.slot i) a) (hst : (s'.slot i).step i a = (st, out))
    (hS : st.inSend = (s'.slot i).inSend) (hR : st.inRecv = (s'.slot i).inRecv)
    (hb : st.Busy → (s'.slot i).Busy) : Calls s0 s (s'.put i st a out) :=
  ⟨hs.toGrows.put hp ha hst, hs.toSchedules.put hb, frames_update hs.frames hS hR⟩

/-- An act that makes or ends no call-back of a transfer, and the event that it schedules. -/
theorem Calls.putSchedule (hs : Calls s0 s s') (hp : a.isPoll = false)
    (ha : SlotState.Allowed i (s'.slot i) a) (hst : (s'.slot i).step i a = (st, out))
    (hS : st.inSend = (s'.slot i).inSend) (hR : st.inRecv = (s'.slot i).inRecv) :
    Calls s0 s (s'.put i st a out).eqSchedule :=
  ⟨(hs.toGrows.put hp ha hst).eqSchedule, hs.toSchedules.putSchedule, by
    simpa only [eqSchedule_slot, put_slot] using frames_update hs.frames hS hR⟩

/-! ## The calls -/

/-- `f` is a piece of a run that makes calls only. -/
def MakesCalls (s0 : Slot → SlotState) (f : Interface → Interface) : Prop :=
  ∀ s, Good s0 s → Calls s0 s (f s)

variable {onConnect onData : Interface → Interface}

theorem socketOpen_calls (proto : NsapiProtocol) :
    MakesCalls s0 fun s => (s.socketOpen proto).1 := by
  intro s hs
  dsimp only [socketOpen]
  split
  · exact .refl hs
  · rename_i i hi
    have hfree : (s.gSock i).id = -1 := by simpa using List.find?_some hi
    exact (Calls.refl hs).put rfl hfree rfl rfl rfl (by rintro (h | h) <;> cases h)

theorem socketClose_calls (h : Slot) : MakesCalls s0 fun s => (s.socketClose h).1 := by
  intro s hs
  dsimp only [socketClose]
  split
  · split
    · exact .refl hs
    · rename_i i hi
      obtain ⟨rfl, hid⟩ := hs.tableIndex hi
      exact (Calls.refl hs).put rfl hid rfl rfl rfl (by rintro (h | h) <;> cases h)
  · exact .refl hs

theorem socketAttach_calls (h : Slot) (callback : Option Nat) (data : Nat) :
    MakesCalls s0 fun s => s.socketAttach h callback data :=
  fun _ hs => (Calls.refl hs).put rfl trivial rfl rfl rfl id

theorem socketListen_calls (h : Slot) : MakesCalls s0 fun s => (s.socketListen h).1 := by
  intro s hs
  have hput := (Calls.refl hs).put (i := h) (a := .listen) rfl trivial rfl rfl rfl id
  dsimp only [socketListen, finish]
  split
  · exact hput
  · exact hput.eqSchedule
  · exact hput

theorem socketConnect_calls (hc : MakesCalls s0 onConnect) (h : Slot) (addr : SocketAddress)
    (opened : Nat → Bool) : MakesCalls s0 fun s => (s.socketConnect onConnect h addr opened).1 := by
  intro s hs
  have hput := (Calls.refl hs).put (i := h) (a := .connect addr opened) rfl trivial rfl rfl rfl id
  dsimp only [socketConnect, finish]
  split
  · exact hput
  · exact hput.eqSchedule
  · exact (hput.trans (hc _ hput.good)).put rfl trivial rfl rfl rfl id

/-- An act that makes a call-back, the call-back, and the act after it, which takes back what the
first one did to the counts of call-backs. -/
theorem Calls.callBack (hd : MakesCalls s0 onData) (hs : Good s0 s) {b : Act}
    (hp : a.isPoll = false) (hp' : b.isPoll = false) (ha : SlotState.Allowed i (s.slot i) a)
    (hst : (s.slot i).step i a = (st, out)) (hbusy : st.Busy → (s.slot i).Busy)
    (hback : ∀ x : SlotState, x.inSend = st.inSend → x.inRecv = st.inRecv →
      SlotState.Allowed i x b ∧ (x.step i b).1.inSend = (s.slot i).inSend ∧
        (x.step i b).1.inRecv = (s.slot i).inRecv)
    (hbusy' : ∀ x : SlotState, (x.step i b).1.Busy → x.Busy) :
    Calls s0 s ((onData (s.put i st a out)).put i
      (((onData (s.put i st a out)).slot i).step i b).1 b
      (((onData (s.put i st a out)).slot i).step i b).2) := by
  have hput := (Grows.refl hs).put hp ha hst
  have hcb := hd _ hput.good
  have hf := hcb.frames i
  rw [put_slot, Function.update_self] at hf
  obtain ⟨hal, hS, hR⟩ := hback _ hf.1 hf.2
  have hsch : Schedules s (s.put i st a out) := Schedules.refl.put hbusy
  refine ⟨(hput.trans hcb.toGrows).put hp' hal rfl,
    (hsch.trans hcb.toSchedules).put (hbusy' _), fun j => ?_⟩
  by_cases hj : j = i
  · subst hj; rw [put_slot, Function.update_self]; exact ⟨hS, hR⟩
  · have := hcb.frames j
    rw [put_slot, Function.update_of_ne hj] at this ⊢
    exact this

/-- The act of `socket_send`. -/
theorem step_send {data size : Nat} {done : Bool} {tx : TxEvent} {next : Next}
    (he : sendEnter (s.gSock i) (s.gSocTx i) data size done = (tx, out, next)) :
    (s.slot i).step i (.send data size done) = ({ s.slot i with
      tx := tx, inSend := if next = .callBack then (s.slot i).inSend + 1 else (s.slot i).inSend },
      out) := by
  simp only [gSock, gSocTx] at he
  simp only [SlotState.step, he]

/-- The act of `socket_recv`. -/
theorem step_recv {data size : Nat} {res : RecvResult} {rx : RxEvent} {next : Next}
    (he : recvEnter (s.gSock i) (s.gSocRx i) data size res = (rx, out, next)) :
    (s.slot i).step i (.recv data size res) = ({ s.slot i with
      rx := rx, inRecv := if next = .callBack then (s.slot i).inRecv + 1 else (s.slot i).inRecv },
      out) := by
  simp only [gSock, gSocRx] at he
  simp only [SlotState.step, he]

/-- The act of `socket_recvfrom` on a connected socket. -/
theorem step_recvfrom (hcon : (s.gSock i).connected = true) :
    (s.slot i).step i .recvfrom = (s.slot i, [.sender (s.gSock i).addr]) := by
  simp only [gSock] at hcon
  simp only [SlotState.step, hcon, ↓reduceIte, gSock]

theorem socketSend_calls (hd : MakesCalls s0 onData) (h : Slot) (data size : Nat) (done : Bool) :
    MakesCalls s0 fun s => (s.socketSend onData h data size done).1 := by
  intro s hs
  dsimp only [socketSend]
  split
  · exact .refl hs
  rename_i i hi
  obtain ⟨rfl, hid⟩ := hs.tableIndex hi
  rcases he : sendEnter (s.gSock i) (s.gSocTx i) data size done with ⟨tx, out, next⟩
  have hst := step_send he
  have hactive := (sendEnter_cases he).active
  cases next with
  | ret n =>
    exact (Calls.refl hs).put (i := i) (a := .send data size done) rfl hid hst rfl rfl
      (Or.imp_left (hactive (by simp)))
  | schedule n =>
    exact (Calls.refl hs).putSchedule (i := i) (a := .send data size done) rfl hid hst rfl rfl
  | callBack =>
    refine Calls.callBack (i := i) (a := .send data size done) hd hs rfl (b := .sendRet) rfl hid
      hst (Or.imp_left (hactive (by simp))) (fun x hS hR => ?_) fun x => ?_
    · simp only [↓reduceIte] at hS
      exact ⟨show 0 < x.inSend by omega, show x.inSend - 1 = _ by omega, hR⟩
    · rintro (h | h)
      · cases h
      · exact .inr h

theorem socketRecv_calls (hd : MakesCalls s0 onData) (h : Slot) (data size : Nat)
    (res : RecvResult) : MakesCalls s0 fun s => (s.socketRecv onData h data size res).1 := by
  intro s hs
  dsimp only [socketRecv]
  split
  · exact .refl hs
  rename_i i hi
  obtain ⟨rfl, hid⟩ := hs.tableIndex hi
  rcases he : recvEnter (s.gSock i) (s.gSocRx i) data size res with ⟨rx, out, next⟩
  have hst := step_recv he
  have hactive := (recvEnter_cases he).active
  cases next with
  | ret n =>
    exact (Calls.refl hs).put (i := i) (a := .recv data size res) rfl hid hst rfl rfl
      (Or.imp_right (hactive (by simp)))
  | schedule n =>
    exact (Calls.refl hs).putSchedule (i := i) (a := .recv data size res) rfl hid hst rfl rfl
  | callBack =>
    refine Calls.callBack (i := i) (a := .recv data size res) hd hs rfl (b := .recvRet) rfl hid
      hst (Or.imp_right (hactive (by simp))) (fun x hS hR => ?_) fun x => ?_
    · simp only [↓reduceIte] at hR
      exact ⟨show 0 < x.inRecv by omega, hS, show x.inRecv - 1 = _ by omega⟩
    · rintro (h | h)
      · exact .inl h
      · cases h

theorem socketSendto_calls (hc : MakesCalls s0 onConnect) (hd : MakesCalls s0 onData) (h : Slot)
    (addr : SocketAddress) (opened : Nat → Bool) (data size : Nat) (done : Bool) :
    MakesCalls s0 fun s => (s.socketSendto onConnect onData h addr opened data size done).1 := by
  intro s hs
  show Calls s0 s (s.socketSendto onConnect onData h addr opened data size done).1
  unfold socketSendto
  rcases he : (if !(s.gSock h).connected then socketConnect onConnect s h addr opened
    else (s, nsapiErrorOk)) with ⟨s₁, err⟩
  have h₁ : Calls s0 s s₁ := by
    by_cases hcon : (s.gSock h).connected
    · simp only [hcon, Bool.not_true, Bool.false_eq_true, ↓reduceIte, Prod.mk.injEq] at he
      exact he.1 ▸ .refl hs
    · have : Calls s0 s (s.socketConnect onConnect h addr opened).1 :=
        socketConnect_calls hc h addr opened s hs
      simp only [hcon, Bool.not_false, ↓reduceIte] at he
      rwa [he] at this
  show Calls s0 s (if err ≠ nsapiErrorOk then (s₁, err)
    else s₁.socketSend onData h data size done).1
  by_cases herr : err ≠ nsapiErrorOk
  · rw [if_pos herr]; exact h₁
  · rw [if_neg herr]; exact h₁.trans (socketSend_calls hd h data size done _ h₁.good)

theorem socketRecvfrom_calls (hd : MakesCalls s0 onData) (h : Slot) (data size : Nat)
    (res : RecvResult) : MakesCalls s0 fun s => (s.socketRecvfrom onData h data size res).1 := by
  intro s hs
  show Calls s0 s (s.socketRecvfrom onData h data size res).1
  unfold socketRecvfrom
  by_cases hcon : (s.gSock h).connected
  · have h₁ : Calls s0 s (s.put h (s.slot h) .recvfrom [.sender (s.gSock h).addr]) :=
      (Calls.refl hs).put rfl trivial (step_recvfrom hcon) rfl rfl id
    simp only [hcon, Bool.not_true, Bool.false_eq_true, ↓reduceIte]
    exact h₁.trans (socketRecv_calls hd h data size res _ h₁.good)
  · have hst : (s.slot h).step h .recvfrom =
        (s.slot h, [.ret .socketRecvfrom nsapiErrorNoConnection]) := by
      simp only [gSock] at hcon
      simp only [SlotState.step, hcon, Bool.false_eq_true, ↓reduceIte]
    simp only [hcon, Bool.not_false, ↓reduceIte]
    exact (Calls.refl hs).put rfl trivial hst rfl rfl id

theorem exec_calls (hc : MakesCalls s0 onConnect) (hd : MakesCalls s0 onData) (c : Call) :
    MakesCalls s0 fun s => (exec onConnect onData s c).1 := by
  intro s hs
  cases c with
  | «open» proto => exact socketOpen_calls proto s hs
  | close h => exact socketClose_calls h s hs
  | attach h callback data => exact socketAttach_calls h callback data s hs
  | listen h => exact socketListen_calls h s hs
  | connect h addr opened => exact socketConnect_calls hc h addr opened s hs
  | send h data size done => exact socketSend_calls hd h data size done s hs
  | recv h data size res => exact socketRecv_calls hd h data size res s hs
  | sendto h addr opened data size done =>
    exact socketSendto_calls hc hd h addr opened data size done s hs
  | recvfrom h data size res => exact socketRecvfrom_calls hd h data size res s hs
  | setsockopt h level optname optval optlen =>
    exact (Calls.refl hs).put (a := .setsockopt level optname optval optlen) rfl trivial rfl rfl rfl
      id
  | getsockopt h level optname optval optlen =>
    exact (Calls.refl hs).put (a := .getsockopt level optname optval optlen) rfl trivial rfl rfl rfl
      id

end Interface

open Interface

variable {s0 : Slot → SlotState}

/-- What a call-back does, with all the call-backs inside it, is calls. -/
theorem Script.calls (sc : Script) : MakesCalls s0 sc.run := by
  induction sc with
  | done => exact fun s hs => .refl hs
  | call c onConnect onData rest hc hd hr =>
    intro s hs
    have h₁ := exec_calls hc hd c s hs
    exact h₁.trans (hr _ h₁.good)

/-! ## `g_eq_event` -/

namespace Interface

variable {s s' : Interface} {e : TickEnv} {d : Event} {g : Bool} {i : Slot}

theorem ctor_good (raw : Slot → SlotState) : Good (ctor raw).slot (ctor raw) :=
  ⟨fun _ => .inl rfl, rfl, trivial, trivial⟩

/-- A turn of the first loop of `g_eq_event` on slot `i` is its act `poll`. -/
theorem pollTurn_slot :
    (pollTurn e (s, d, g) i).1.slot =
      Function.update s.slot i ((s.slot i).step i (.poll (e.rx i) (e.tx i) g)).1 := rfl

theorem pollTurn_good (hs : Good s0 s) : Good s0 (pollTurn e (s, d, g) i).1 :=
  hs.put (a := .poll (e.rx i) (e.tx i) g) trivial rfl

theorem pollTurn_frames (j : Slot) :
    ((pollTurn e (s, d, g) i).1.slot j).inSend = (s.slot j).inSend ∧
      ((pollTurn e (s, d, g) i).1.slot j).inRecv = (s.slot j).inRecv := by
  rw [pollTurn_slot]
  by_cases hj : j = i
  · subst hj; rw [Function.update_self]; exact ⟨rfl, rfl⟩
  · rw [Function.update_of_ne hj]; exact ⟨rfl, rfl⟩

/-- `goSlow` after a turn of the first loop of `g_eq_event` on slot `i`, entered with `goSlow`. -/
def slowTurn (slot : Slot → SlotState) (e : TickEnv) (goSlow : Bool) (i : Slot) : Bool :=
  (pollTx (slot i).tx (e.tx i) (pollRx (slot i).rx (e.rx i) goSlow).2.2.2).2.2.2

/-- `goSlow` when the first loop of `g_eq_event` comes to slot `i`. -/
def slowAt (slot : Slot → SlotState) (e : TickEnv) (i : Slot) : Bool :=
  ((List.finRange bg96SocketCount).take i).foldl (slowTurn slot e) false

/-- What the first loop of `g_eq_event` adds to the trace on the slots `is`. -/
def pollTrace (slot : Slot → SlotState) (e : TickEnv) : List Slot → Bool → Trace
  | [], _ => []
  | i :: is, goSlow => pollTrace slot e is (slowTurn slot e goSlow i) ++
    [⟨i, .poll (e.rx i) (e.tx i) goSlow, ((slot i).step i (.poll (e.rx i) (e.tx i) goSlow)).2⟩]

theorem pollTrace_congr {slot slot' : Slot → SlotState} {is : List Slot}
    (h : ∀ j ∈ is, slot j = slot' j) (g : Bool) :
    pollTrace slot e is g = pollTrace slot' e is g := by
  induction is generalizing g with
  | nil => rfl
  | cons i is ih =>
    have hi := h i List.mem_cons_self
    simp only [pollTrace, slowTurn, hi, ih fun j hj => h j (List.mem_cons_of_mem _ hj)]

/-- What the first loop of `g_eq_event` does on the slots `is`. -/
structure Polls (s0 : Slot → SlotState) (e : TickEnv) (is : List Slot) (g : Bool)
    (s s' : Interface) : Prop where
  good : Good s0 s'
  frames : ∀ j, (s'.slot j).inSend = (s.slot j).inSend ∧ (s'.slot j).inRecv = (s.slot j).inRecv
  trace : s'.trace = pollTrace s.slot e is g ++ s.trace

theorem pollLoop (hs : Good s0 s) {is : List Slot} (his : is.Nodup) :
    Polls s0 e is g s (is.foldl (pollTurn e) (s, d, g)).1 := by
  induction is generalizing s d g with
  | nil => exact ⟨hs, fun _ => ⟨rfl, rfl⟩, rfl⟩
  | cons i is ih =>
    obtain ⟨hi, his⟩ := List.nodup_cons.mp his
    have hfr := pollTurn_frames (s := s) (e := e) (d := d) (g := g) (i := i)
    have ht := ih (s := (pollTurn e (s, d, g) i).1)
      (d := (pollTurn e (s, d, g) i).2.1) (g := slowTurn s.slot e g i)
      (pollTurn_good hs) his
    refine ⟨ht.good, fun j => ?_, ?_⟩
    · exact ⟨(ht.frames j).1.trans (hfr j).1, (ht.frames j).2.trans (hfr j).2⟩
    · have hslot : ∀ j ∈ is, (pollTurn e (s, d, g) i).1.slot j = s.slot j := by
        intro j hj
        rw [pollTurn_slot, Function.update_of_ne (by rintro rfl; exact hi hj)]
      rw [pollTrace, List.append_assoc, ← pollTrace_congr hslot]
      exact ht.trace

/-- If the turn of each slot satisfies `Q` in the state before the loop, with the `goSlow` of the
slots before it, then all turns do: no slot has two turns. -/
theorem pollTrace_along {Q : Slot → SlotState → Act → Prop} {slot slot' : Slot → SlotState}
    {is : List Slot} (his : is.Nodup) (hslot : ∀ j ∈ is, slot' j = slot j)
    (hQ : ∀ pre i post, is = pre ++ i :: post →
      Q i (slot i) (.poll (e.rx i) (e.tx i) (pre.foldl (slowTurn slot e) g))) :
    Along SlotState.step Q slot' (pollTrace slot e is g) := by
  induction is generalizing slot' g with
  | nil => trivial
  | cons i is ih =>
    obtain ⟨hi, his⟩ := List.nodup_cons.mp his
    refine along_append.mpr ⟨ih his (fun j hj => ?_) fun pre j post hj => ?_, ?_, trivial⟩
    · rw [after_cons_ne (by rintro rfl; exact hi hj), after_nil]
      exact hslot j (List.mem_cons_of_mem _ hj)
    · exact hQ (i :: pre) j post (by rw [hj]; rfl)
    · rw [after_nil, hslot i List.mem_cons_self]
      exact hQ [] i is rfl

theorem fireRx_active {rx rx' : RxEvent} {out : List Out} {fired : Bool}
    (h : Bg96.fireRx rx = (rx', out, fired)) (hr : rx'.mRxState = .readActive) :
    rx.mRxState = .readActive := by
  unfold Bg96.fireRx at h
  split at h <;> cases h
  · cases hr
  · exact hr

theorem fireTx_active {tx tx' : TxEvent} {out : List Out} {fired : Bool}
    (h : Bg96.fireTx tx = (tx', out, fired)) (ht : tx'.mTxState = .txActive) :
    tx.mTxState = .txActive := by
  unfold Bg96.fireTx at h
  split at h <;> cases h
  · cases ht
  · exact ht

/-- A part of a turn of the second loop of `g_eq_event`: the act, then the call-back. -/
theorem fireTurnRx_calls (i : Slot) (hs : Good s0 s) :
    ∃ s₁, Calls s0 s s₁ ∧ (s₁.slot i).rx = (Bg96.fireRx (s.gSocRx i)).1 ∧
      Calls s0 s₁ (fireTurnRx e s i) := by
  rcases hr : Bg96.fireRx (s.gSocRx i) with ⟨rx, out, fired⟩
  have hput : Calls s0 s (s.put i { s.slot i with rx := rx } .fireRx out) := by
    refine (Calls.refl hs).put rfl trivial ?_ rfl rfl (Or.imp_right (fireRx_active hr))
    simp only [gSocRx] at hr; simp only [SlotState.step, hr]
  refine ⟨_, hput, by rw [put_slot, Function.update_self], ?_⟩
  simp only [fireTurnRx, hr]
  split
  · exact Script.calls _ _ hput.good
  · exact .refl hput.good

theorem fireTurnTx_calls (i : Slot) (hs : Good s0 s) :
    ∃ s₁, Calls s0 s s₁ ∧ (s₁.slot i).tx = (Bg96.fireTx (s.gSocTx i)).1 ∧
      Calls s0 s₁ (fireTurnTx e s i) := by
  rcases ht : Bg96.fireTx (s.gSocTx i) with ⟨tx, out, fired⟩
  have hput : Calls s0 s (s.put i { s.slot i with tx := tx } .fireTx out) := by
    refine (Calls.refl hs).put rfl trivial ?_ rfl rfl (Or.imp_left (fireTx_active ht))
    simp only [gSocTx] at ht; simp only [SlotState.step, ht]
  refine ⟨_, hput, by rw [put_slot, Function.update_self], ?_⟩
  simp only [fireTurnTx, ht]
  split
  · exact Script.calls _ _ hput.good
  · exact .refl hput.good

theorem fireTurn_calls (i : Slot) : MakesCalls s0 fun s => fireTurn e s i := by
  intro s hs
  obtain ⟨s₁, h₁, -, h₁'⟩ := fireTurnRx_calls (e := e) i hs
  obtain ⟨s₂, h₂, -, h₂'⟩ := fireTurnTx_calls (e := e) i h₁'.good
  exact (h₁.trans h₁').trans (h₂.trans h₂')

theorem fireLoop (is : List Slot) : MakesCalls s0 fun s => is.foldl (fireTurn e) s := by
  induction is with
  | nil => exact fun s hs => .refl hs
  | cons i is ih =>
    intro s hs
    have h₁ : Calls s0 s (fireTurn e s i) := fireTurn_calls i s hs
    exact h₁.trans (ih _ h₁.good)

theorem take_finRange {pre post : List Slot}
    (h : List.finRange bg96SocketCount = pre ++ i :: post) :
    pre = (List.finRange bg96SocketCount).take i := by
  have hlen : (List.finRange bg96SocketCount)[pre.length]? = some i := by rw [h]; simp
  have hi : pre.length = i.val := by
    have := List.getElem?_eq_some_iff.mp hlen
    obtain ⟨hlt, hv⟩ := this
    rw [List.getElem_finRange] at hv
    exact congrArg Fin.val hv
  rw [h, ← hi, List.take_left']
  rfl

/-- What one firing of `g_eq_event` does: its first loop adds its turns to the trace, then its
second loop adds acts that are not turns of the first one. -/
structure Ticks (s0 : Slot → SlotState) (e : TickEnv) (s s' : Interface) : Prop where
  good : Good s0 s'
  frames : ∀ j, (s'.slot j).inSend = (s.slot j).inSend ∧ (s'.slot j).inRecv = (s.slot j).inRecv
  trace : ∃ fires,
    s'.trace = fires ++ (pollTrace s.slot e (List.finRange bg96SocketCount) false ++ s.trace) ∧
      ∀ a ∈ fires, a.inp.isPoll = false

theorem gEqEvent_ticks (hs : Good s0 s) : Ticks s0 e s (gEqEvent true e s) := by
  unfold gEqEvent
  generalize (if s.scheduledEvents > 0 then s.scheduledEvents - 1 else s.scheduledEvents) = n
  have hn : Good s0 { s with scheduledEvents := n } := ⟨hs.1, hs.2, hs.3, hs.4⟩
  have hpoll := pollLoop (e := e) (d := eventComplete) (g := false) hn (List.nodup_finRange _)
  rcases he : (List.finRange bg96SocketCount).foldl (pollTurn e)
    ({ s with scheduledEvents := n }, eventComplete, false) with ⟨s₁, done, goSlow⟩
  simp only [he] at hpoll
  simp only [Bool.not_true, Bool.false_eq_true, ↓reduceIte, he]
  have hfire : Calls s0 s₁ ((List.finRange bg96SocketCount).foldl (fireTurn e) s₁) :=
    fireLoop _ s₁ hpoll.good
  have hend : Calls s0 s₁ (if done ≠ eventComplete
      then ((List.finRange bg96SocketCount).foldl (fireTurn e) s₁).eqSchedule
      else (List.finRange bg96SocketCount).foldl (fireTurn e) s₁) := by
    split
    · exact hfire.eqSchedule
    · exact hfire
  obtain ⟨fires, hf, hp⟩ := hend.new
  refine ⟨hend.good, fun j => ?_, fires, by rw [← hpoll.trace]; exact hf, hp⟩
  exact ⟨(hend.frames j).1.trans (hpoll.frames j).1, (hend.frames j).2.trans (hpoll.frames j).2⟩

end Interface

/-! ## Runs -/

variable {s s' : Interface} {l : Label} {ls : List Label} {raw : Slot → SlotState}

/-- What a step adds to the trace. -/
structure Steps (s0 : Slot → SlotState) (s s' : Interface) : Prop where
  good : Good s0 s'
  frames : ∀ j, (s'.slot j).inSend = (s.slot j).inSend ∧ (s'.slot j).inRecv = (s.slot j).inRecv
  trace : ∃ new, s'.trace = new ++ s.trace

theorem step_steps (hs : Good s0 s) (l : Label) : Steps s0 s (step s l).1 := by
  have hq : Good s0 { s with bg96Queue := s.bg96Queue - 1 } := ⟨hs.1, hs.2, hs.3, hs.4⟩
  cases l with
  | call c onConnect onData =>
    have hc := exec_calls (Script.calls onConnect) (Script.calls onData) c s hs
    obtain ⟨new, hn, -⟩ := hc.new
    exact ⟨hc.good, hc.frames, new, hn⟩
  | tick e =>
    have ht := gEqEvent_ticks (e := e) hq
    obtain ⟨fires, hf, -⟩ := ht.trace
    exact ⟨ht.good, ht.frames, _, hf.trans (List.append_assoc ..).symm⟩
  | busy e =>
    simp only [step, gEqEvent, Bool.not_false, ↓reduceIte]
    exact ⟨Good.eqSchedule ⟨hs.1, hs.2, hs.3, hs.4⟩, by simp, [], by simp⟩

variable {P : Interface → Label → Prop}

theorem Run.good (hr : Run P s ls s') (hs : Good s0 s) : Good s0 s' := by
  induction hr with
  | nil => exact hs
  | cons _ _ _ ih => exact ih (step_steps hs _).good

theorem Run.frames (hr : Run P s ls s') (hs : Good s0 s) (j : Slot) :
    (s'.slot j).inSend = (s.slot j).inSend ∧ (s'.slot j).inRecv = (s.slot j).inRecv := by
  induction hr with
  | nil => exact ⟨rfl, rfl⟩
  | @cons s s' l ls _ _ _ ih =>
    have h := step_steps hs l
    exact ⟨(ih h.good).1.trans (h.frames j).1, (ih h.good).2.trans (h.frames j).2⟩

theorem Reachable.good (hr : Reachable raw s) : Good (ctor raw).slot s := by
  obtain ⟨ls, hr⟩ := hr
  exact hr.good (ctor_good raw)

/-- The sockets of an interface on the memory `raw` after the acts `h`. -/
abbrev slotAfter (raw : Slot → SlotState) (h : Trace) : Slot → SlotState :=
  after SlotState.step (ctor raw).slot h

/-- No call is in a call-back between two steps. -/
theorem Reachable.frames (hr : Reachable raw s) (j : Slot) :
    (s.slot j).inSend = 0 ∧ (s.slot j).inRecv = 0 := by
  obtain ⟨ls, hr⟩ := hr
  exact hr.frames (ctor_good raw) j

/-- **Runs and histories.** A run adds acts to the trace. If each of its steps adds acts that
satisfy `Q`, then all that it adds do. -/
theorem Run.along {Q : Slot → SlotState → Act → Prop}
    (hstep : ∀ s l, Good s0 s → Enabled s l → P s l →
      ∀ new, (step s l).1.trace = new ++ s.trace → Along SlotState.step Q s.slot new)
    (hr : Run P s ls s') (hs : Good s0 s) :
    ∃ new, s'.trace = new ++ s.trace ∧ Along SlotState.step Q s.slot new := by
  induction hr with
  | nil => exact ⟨[], rfl, trivial⟩
  | @cons s s' l ls he hp _ ih =>
    have h := step_steps hs l
    obtain ⟨n₁, hn₁⟩ := h.trace
    obtain ⟨n₂, hn₂, ha₂⟩ := ih h.good
    have ha₁ := hstep s l hs he hp n₁ hn₁
    refine ⟨n₂ ++ n₁, by rw [hn₂, hn₁, List.append_assoc], along_append.mpr ⟨?_, ha₁⟩⟩
    have : (step s l).1.slot = after SlotState.step s.slot n₁ := by
      rw [h.good.replay, hn₁, after_append, ← hs.replay]
    rwa [← this]

/-- A firing of `g_eq_event` adds acts that satisfy `Q`, if the turns of its first loop do in the
state before the firing, and everything else satisfies `Q`. -/
theorem tick_along {Q : Slot → SlotState → Act → Prop} {e : TickEnv} (hs : Good s0 s)
    (hpoll : ∀ i, Q i (s.slot i) (.poll (e.rx i) (e.tx i) (slowAt s.slot e i)))
    (hother : ∀ k st a, a.isPoll = false → Q k st a) {new : Trace}
    (hn : (step s (.tick e)).1.trace = new ++ s.trace) : Along SlotState.step Q s.slot new := by
  have hq : Good s0 { s with bg96Queue := s.bg96Queue - 1 } := ⟨hs.1, hs.2, hs.3, hs.4⟩
  obtain ⟨fires, hf, hp⟩ := (gEqEvent_ticks (e := e) hq).trace
  have hnew : new = fires ++ pollTrace s.slot e (List.finRange bg96SocketCount) false := by
    have : new ++ s.trace =
        fires ++ pollTrace s.slot e (List.finRange bg96SocketCount) false ++ s.trace := by
      rw [← hn, List.append_assoc]; exact hf
    exact List.append_cancel_right this
  rw [hnew]
  refine along_append.mpr ⟨along_of_forall fun a ha k st => hother k st _ (hp a ha), ?_⟩
  refine pollTrace_along (List.nodup_finRange _) (fun _ _ => rfl) fun pre i post hi => ?_
  rw [take_finRange hi]
  exact hpoll i

/-- A step that is not a firing of `g_eq_event` adds no turn of its first loop. -/
theorem call_along {Q : Slot → SlotState → Act → Prop} (hs : Good s0 s)
    (hl : ∀ e, l ≠ .tick e) (hother : ∀ k st a, a.isPoll = false → Q k st a) {new : Trace}
    (hn : (step s l).1.trace = new ++ s.trace) : Along SlotState.step Q s.slot new := by
  cases l with
  | call c onConnect onData =>
    obtain ⟨new', hn', hp⟩ := (exec_calls (Script.calls onConnect) (Script.calls onData) c s hs).new
    obtain rfl : new = new' := List.append_cancel_right (hn.symm.trans hn')
    exact along_of_forall fun a ha k st => hother k st _ (hp a ha)
  | tick e => exact absurd rfl (hl e)
  | busy e =>
    simp only [step, gEqEvent, Bool.not_false, ↓reduceIte, eqSchedule_trace] at hn
    obtain rfl : new = [] := List.append_cancel_right (hn.symm.trans (List.nil_append _).symm)
    trivial

end Bg96
