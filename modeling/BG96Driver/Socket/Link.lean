import BG96Driver.Lib.Monitor
import BG96Driver.Socket.Replay

/-!
# The links of the modem

`BG96::open` and `BG96::close` open and close the modem's link of an `id`. The socket's field
`connected` is what the driver knows of it.

`socket_connect` counts its attempts, and takes a count of 3 for a failure: if the third attempt
succeeds, then it returns an error, and the link stays open. If all three fail on a connected
socket, then the link is closed, and the socket stays connected.

* `link`: the address that a link is open to, as the monitor of the modem's commands sees it.
* `linkOf`: the link after the acts of all sockets.
* `Answered`: the acts but those two kinds of `socket_connect`.
* `connected_iff_link`: after such acts `connected` says whether the link is open.
-/

namespace Bg96

open History Interface

/-! ## The monitor -/

/-- The link that a command is for. -/
def Out.linkId : Out → Option Int
  | .modemOpen id .. | .modemClose id => some id
  | _ => none

/-- The address that the modem's link `i` is open to. A failed `BG96::open` changes nothing. -/
def link (i : Slot) : Monitor (Option SocketAddress) Out where
  init := none
  next r
    | .modemOpen id _ addr ok => if id = i.val ∧ ok = true then some addr else r
    | .modemClose id => if id = i.val then none else r
    | _ => r
  ok _ _ := True

/-- The link `i` after what all the sockets have shown. -/
def linkOf (i : Slot) : Trace → Option SocketAddress
  | [] => none
  | e :: h => (link i).run (linkOf i h) e.out

variable {i k : Slot} {r : Option SocketAddress} {o : List Out} {st : SlotState} {a : Act}

/-- Commands for other links do not change the link. -/
theorem link_silent (h : ∀ x ∈ o, x.linkId ≠ some i.val) : (link i).run r o = r := by
  refine Monitor.run_of_silent fun x hx r => ?_
  have hne := h x hx
  cases x with
  | modemOpen id => exact if_neg fun hid => hne (congrArg some hid.1)
  | modemClose id => exact if_neg fun hid => hne (congrArg some hid)
  | _ => rfl

/-- The outputs are not commands for a link. -/
def NoLink (o : List Out) : Prop := ∀ x ∈ o, x.linkId = none

theorem NoLink.append {o' : List Out} (h : NoLink o) (h' : NoLink o') : NoLink (o ++ o') :=
  fun x hx => (List.mem_append.mp hx).elim (h x) (h' x)

theorem NoLink.run (h : NoLink o) : (link i).run r o = r :=
  link_silent fun x hx => by rw [h x hx]; simp

theorem TxCase.noLink {ptr ptr' : TxEvent} {done : Bool} {event : Event}
    (h : TxCase ptr done ptr' o event) : NoLink o := by
  cases h <;> simp [NoLink, Out.linkId]

theorem RxCase.noLink {ptr ptr' : RxEvent} {res : RecvResult} {event : Event}
    (h : RxCase ptr res ptr' o event) : NoLink o := by
  cases h <;> simp [NoLink, Out.linkId]

theorem SocketSendCase.noLink {sock : Bg96Socket} {tx tx' : TxEvent} {data size : Nat} {done : Bool}
    {next : Next} (h : SocketSendCase sock tx data size done tx' o next) : NoLink o := by
  cases h with
  | refuse | collect => simp [NoLink, Out.linkId, sendLeave]
  | block t o _ _ _ he | callBack t o _ _ _ he | sync t o _ _ _ he =>
    exact he.noLink.append (by simp [NoLink, Out.linkId, sendLeave])

theorem SocketRecvCase.noLink {sock : Bg96Socket} {rx rx' : RxEvent} {data size : Nat}
    {res : RecvResult}
    {next : Next} (h : SocketRecvCase sock rx data size res rx' o next) : NoLink o := by
  cases h with
  | refuse | collect => simp [NoLink, Out.linkId, recvLeave]
  | block r o _ _ _ he | callBack r o _ _ _ he | sync r o _ _ _ he =>
    refine .append (o := _ :: o) ?_ (by simp [NoLink, Out.linkId, recvLeave])
    exact .append (o := [_]) (by simp [NoLink, Out.linkId]) he.noLink

theorem PollTxCase.noLink {tx tx' : TxEvent} {done g g' : Bool} {event : Event}
    (h : PollTxCase tx done g tx' o event g') : NoLink o := by
  cases h with
  | poll _ _ _ _ he => exact he.noLink
  | pass => simp [NoLink]

theorem PollRxCase.noLink {rx rx' : RxEvent} {res : RecvResult} {g g' : Bool} {event : Event}
    (h : PollRxCase rx res g rx' o event g') : NoLink o := by
  cases h with
  | poll _ _ _ _ _ he => exact he.noLink
  | pass => simp [NoLink]

/-- Only `socket_connect` and `socket_close` give commands for a link. -/
theorem step_noLink (k : Slot) (st : SlotState) (ha : ∀ addr opened, a ≠ .connect addr opened)
    (hc : a ≠ .close) : NoLink (st.step k a).2 := by
  cases a with
  | close => exact absurd rfl hc
  | connect addr opened => exact absurd rfl (ha addr opened)
  | «open» | attach | connectRet | sendRet | recvRet | setsockopt =>
    simp [NoLink, SlotState.step, Out.linkId, sendLeave, recvLeave]
  | listen =>
    simp only [SlotState.step, Bg96.listen]
    split <;> simp [NoLink, Out.linkId]
  | send p n done =>
    rcases he : sendEnter st.sock st.tx p n done with ⟨tx, out, next⟩
    simp only [SlotState.step, he]
    exact (sendEnter_cases he).noLink
  | recv p n res =>
    rcases he : recvEnter st.sock st.rx p n res with ⟨rx, out, next⟩
    simp only [SlotState.step, he]
    exact (recvEnter_cases he).noLink
  | recvfrom =>
    simp only [SlotState.step]
    split <;> simp [NoLink, Out.linkId]
  | getsockopt =>
    simp only [SlotState.step, Bg96.getsockopt]
    repeat' split
    all_goals simp [NoLink, Out.linkId]
  | poll res done g =>
    rcases hr : pollRx st.rx res g with ⟨rx, out, event, g'⟩
    rcases ht : pollTx st.tx done g' with ⟨tx, out', event', g''⟩
    simp only [SlotState.step, hr, ht]
    exact (pollRx_cases hr).noLink.append (pollTx_cases ht).noLink
  | fireRx =>
    simp only [SlotState.step, Bg96.fireRx]
    split <;> simp [NoLink, Out.linkId]
  | fireTx =>
    simp only [SlotState.step, Bg96.fireTx]
    split <;> simp [NoLink, Out.linkId]

/-! ## `socket_connect` -/

/-- One of the attempts of `socket_connect` succeeds. It makes no attempt after a success. -/
def Attempted (opened : Nat → Bool) : Prop := ∃ k < 3, opened k = true

theorem attempted_iff {opened : Nat → Bool} :
    Attempted opened ↔ opened 0 = true ∨ opened 1 = true ∨ opened 2 = true := by
  refine ⟨fun ⟨k, hk, ho⟩ => ?_, ?_⟩
  · obtain rfl | rfl | rfl : k = 0 ∨ k = 1 ∨ k = 2 := by omega
    · exact .inl ho
    · exact .inr (.inl ho)
    · exact .inr (.inr ho)
  · rintro (h | h | h)
    · exact ⟨0, by omega, h⟩
    · exact ⟨1, by omega, h⟩
    · exact ⟨2, by omega, h⟩

instance (opened : Nat → Bool) : Decidable (Attempted opened) :=
  decidable_of_iff _ attempted_iff.symm

variable {sock : Bg96Socket} {addr : SocketAddress} {opened : Nat → Bool}

/-- How `socket_connect` goes on after a success that it notices. -/
def connectNext (sock : Bg96Socket) : Next :=
  if sock.callback.isSome then .callBack else .ret nsapiErrorOk

variable (sock addr) in
/-- A success of the first or the second attempt. -/
theorem connectEnter_ok (h : opened 0 = true ∨ opened 1 = true) :
    (connectEnter sock addr opened).1 = { sock with addr := addr, connected := true } ∧
    (connectEnter sock addr opened).2.2 = connectNext sock := by
  have hcnt : (connectLoop sock addr opened 3 0 true).1 < 3 := by
    rcases h0 : opened 0 with _ | _
    · have h1 : opened 1 = true := h.resolve_left (by simp [h0])
      simp [connectLoop, h0, h1]
    · simp [connectLoop, h0]
  simp only [connectEnter, if_pos hcnt, connectNext]
  split <;> exact ⟨rfl, rfl⟩

variable (sock addr) in
/-- A failure of the first two attempts, whatever the third one does. -/
theorem connectEnter_error (h0 : opened 0 = false) (h1 : opened 1 = false) :
    (connectEnter sock addr opened).1 = sock ∧
    (connectEnter sock addr opened).2.2 = .ret nsapiErrorDeviceError := by
  have hcnt : (connectLoop sock addr opened 3 0 true).1 = 3 := by
    simp [connectLoop, h0, h1]
  simp only [connectEnter, hcnt, Nat.lt_irrefl, ↓reduceIte, and_self]

variable (sock addr opened) in
/-- `socket_connect` shows the commands of its loop, and then none for a link. -/
theorem connectEnter_out : ∃ tail, NoLink tail ∧
    (connectEnter sock addr opened).2.1 = (connectLoop sock addr opened 3 0 true).2 ++ tail := by
  simp only [connectEnter]
  repeat' split
  all_goals exact ⟨_, by simp [NoLink, Out.linkId], rfl⟩

theorem connectLoop_linkId {turns cnt : Nat} {b : Bool} :
    ∀ x ∈ (connectLoop sock addr opened turns cnt b).2, x.linkId = some sock.id := by
  induction turns generalizing cnt b with
  | zero => simp [connectLoop]
  | succ turns ih =>
    simp only [connectLoop]
    split
    · intro x hx
      rcases List.mem_cons.mp hx with rfl | hx
      · rfl
      · rcases List.mem_append.mp hx with hx | hx
        · split at hx <;> simp at hx
          rw [hx]
          rfl
        · exact ih x hx
    · simp

/-- The link of the socket after `socket_connect`. -/
theorem connectEnter_link (hid : sock.id = i.val) :
    (link i).run r (connectEnter sock addr opened).2.1 =
      if Attempted opened then some addr else none := by
  obtain ⟨tail, htail, hout⟩ := connectEnter_out sock addr opened
  rw [hout, Monitor.run_append, htail.run]
  simp only [attempted_iff]
  -- the commands of the loop depend on the results of the three attempts only
  rcases h0 : opened 0 with _ | _ <;> rcases h1 : opened 1 with _ | _ <;>
    rcases h2 : opened 2 with _ | _ <;> simp [connectLoop, h0, h1, h2, link, hid]

/-- The other links after `socket_connect`. -/
theorem connectEnter_other (hid : sock.id ≠ i.val) :
    (link i).run r (connectEnter sock addr opened).2.1 = r := by
  obtain ⟨tail, htail, hout⟩ := connectEnter_out sock addr opened
  rw [hout, Monitor.run_append, htail.run]
  refine link_silent fun x hx => ?_
  rw [connectLoop_linkId x hx]
  simpa using hid

/-! ## `connected` -/

/-- What `connected` says of the link: an open socket is connected if and only if its link is open,
and the link of a closed socket is closed. -/
structure LinkFits (i : Slot) (st : SlotState) (r : Option SocketAddress) : Prop where
  id : st.sock.id = -1 ∨ st.sock.id = i.val
  opened : st.sock.id = i.val → (st.sock.connected = true ↔ r.isSome = true)
  closed : st.sock.id = -1 → r = none

/-- A `socket_connect` on an open socket whose result is what the attempts did: the first or the
second one succeeds, or none does and the socket was not connected. -/
def Answered (_ : Slot) (st : SlotState) : Act → Prop
  | .connect _ opened => st.sock.id ≠ -1 →
    (opened 0 = true ∨ opened 1 = true) ∨ ¬ Attempted opened ∧ st.sock.connected = false
  | _ => True

instance (k : Slot) (st : SlotState) (a : Act) : Decidable (Answered k st a) :=
  match a with
  | .connect _ opened => inferInstanceAs (Decidable (_ → (opened 0 = true ∨ opened 1 = true) ∨
      ¬ Attempted opened ∧ st.sock.connected = false))
  | .open _ | .close | .attach .. | .listen | .connectRet | .send .. | .sendRet | .recv ..
  | .recvRet | .recvfrom | .setsockopt .. | .getsockopt .. | .poll .. | .fireRx | .fireTx =>
    isTrue trivial

theorem attempted_of_first (h : opened 0 = true ∨ opened 1 = true) : Attempted opened :=
  attempted_iff.mpr (h.elim .inl fun h => .inr (.inl h))

/-- The acts that change neither `connected` nor the link. -/
theorem step_connected (ha : ∀ addr opened, a ≠ .connect addr opened)
    (hs : .session ∉ a.sides) : (st.step k a).1.sock.connected = st.sock.connected := by
  cases a with
  | «open» | close => simp [Act.sides] at hs
  | connect addr opened => exact absurd rfl (ha addr opened)
  | listen => dsimp only [SlotState.step, Bg96.listen]; split <;> rfl
  | setsockopt =>
    dsimp only [SlotState.step, Bg96.setsockopt]
    repeat' split
    all_goals rfl
  | _ => rfl

/-- An act that changes neither `connected` nor the link. -/
theorem LinkFits.frame (h : LinkFits i st r) (ha : ∀ addr opened, a ≠ .connect addr opened)
    (hs : .session ∉ a.sides) : LinkFits i (st.step i a).1 ((link i).run r (st.step i a).2) := by
  have hclose : a ≠ .close := by
    rintro rfl
    exact hs List.mem_cons_self
  have hid : (st.step i a).1.sock.id = st.sock.id := SlotState.step_id hs
  rw [(step_noLink i st ha hclose).run]
  refine ⟨by rw [hid]; exact h.id, fun hopen => ?_,
    fun hclosed => h.closed (hid.symm.trans hclosed)⟩
  rw [step_connected ha hs]
  exact h.opened (hid.symm.trans hopen)

theorem LinkFits.connect (h : LinkFits i st r) (hans : Answered i st (.connect addr opened)) :
    LinkFits i (st.step i (.connect addr opened)).1
      ((link i).run r (st.step i (.connect addr opened)).2) := by
  have hid : (st.step i (.connect addr opened)).1.sock.id = st.sock.id := connectEnter_id ..
  refine ⟨by rw [hid]; exact h.id, fun hopen => ?_, fun hclosed => ?_⟩
  · rw [hid] at hopen
    show (connectEnter st.sock addr opened).1.connected = true ↔
      ((link i).run r (connectEnter st.sock addr opened).2.1).isSome = true
    rw [connectEnter_link hopen]
    rcases hans (by omega) with hok | ⟨hno, hconn⟩
    · simp [(connectEnter_ok _ _ hok).1, attempted_of_first hok]
    · have h0 : opened 0 = false := by simpa using fun h0 => hno ⟨0, by omega, h0⟩
      have h1 : opened 1 = false := by simpa using fun h1 => hno ⟨1, by omega, h1⟩
      simp [(connectEnter_error _ _ h0 h1).1, hno, hconn]
  · rw [hid] at hclosed
    show (link i).run r (connectEnter st.sock addr opened).2.1 = none
    rw [connectEnter_other (by omega), h.closed hclosed]

/-- The link after `socket_close` of an open socket. -/
theorem LinkFits.close_link (h : LinkFits i st r) (hopen : st.sock.id = i.val) :
    (link i).run r (st.step i .close).2 = none := by
  simp only [SlotState.step, closeSocket]
  by_cases hc : st.sock.connected = true
  · simp [hc, link, hopen]
  · have hnone : r = none := by simpa using (h.opened hopen).not.mp hc
    simp [hc, hnone, link]

/-- **Step.** An act of the socket keeps `connected` true to the link. -/
theorem LinkFits.step (h : LinkFits i st r) (ha : SlotState.Allowed i st a)
    (hans : Answered i st a) : LinkFits i (st.step i a).1 ((link i).run r (st.step i a).2) := by
  have hid := SlotState.step_id_or h.id a
  cases a with
  | «open» proto =>
    have hlink : (link i).run r (st.step i (.open proto)).2 = none :=
      (step_noLink i st (by simp) (by simp)).run.trans (h.closed ha)
    exact ⟨hid, fun _ => by rw [hlink]; simp [SlotState.step, openSocket], fun _ => hlink⟩
  | close =>
    have hlink := h.close_link ha
    exact ⟨hid, fun _ => by rw [hlink]; simp [SlotState.step, closeSocket], fun _ => hlink⟩
  | connect addr opened => exact h.connect hans
  | _ => exact h.frame (by simp) (by simp [Act.sides])

/-- The other sockets leave the link alone. -/
theorem link_other (hki : k ≠ i) (hid : st.sock.id = -1 ∨ st.sock.id = k.val) :
    (link i).run r (st.step k a).2 = r := by
  have hne : st.sock.id ≠ i.val := by
    have := Fin.val_ne_of_ne hki
    omega
  cases a with
  | connect addr opened => exact connectEnter_other hne
  | close =>
    refine link_silent fun x hx => ?_
    simp only [SlotState.step, closeSocket] at hx
    split at hx <;> simp at hx
    · rcases hx with rfl | rfl <;> simp [Out.linkId, hne]
    · simp [hx, Out.linkId]
  | _ => exact (step_noLink k st (by simp) (by simp)).run

/-- **Invariant.** `connected` is true to the links after acts that are answered. -/
theorem linkFits_along {s0 : Slot → SlotState} {h : Trace}
    (h0 : ∀ i, LinkFits i (s0 i) none) (hh : Honest SlotState.step s0 h)
    (ha : Along SlotState.step SlotState.Allowed s0 h) (hans : Along SlotState.step Answered s0 h) :
    ∀ i, LinkFits i (after SlotState.step s0 h i) (linkOf i h) := by
  induction h with
  | nil => exact h0
  | cons e h ih =>
    intro i
    have hfits := ih hh.2 ha.2 hans.2
    rw [linkOf, hh.1]
    by_cases hi : e.comp = i
    · subst hi
      rw [after_cons_self rfl]
      exact (hfits e.comp).step ha.1 hans.1
    · rw [after_cons_ne hi, link_other hi (hfits e.comp).id]
      exact hfits i

/-! ## The calls -/

/-- `socket_connect` reports its attempts: it returns `NSAPI_ERROR_OK` if and only if one of them
succeeds. It then stores the address and makes the call-back, and else it changes nothing. -/
def Reports (onConnect : Interface → Interface) (s : Interface) (h : Slot) (addr : SocketAddress)
    (opened : Nat → Bool) : Prop :=
  ((s.socketConnect onConnect h addr opened).2 = nsapiErrorOk ↔ Attempted opened) ∧
  ∃ out,
    let sock := { s.gSock h with addr := addr, connected := true }
    let s₁ := s.put h { s.slot h with sock := sock } (.connect addr opened) out
    let s₂ := onConnect s₁
    (s.socketConnect onConnect h addr opened).1 =
      if Attempted opened then
        if (s.gSock h).callback.isSome then
          s₂.put h (s₂.slot h) .connectRet [.ret .socketConnect nsapiErrorOk]
        else s₁
      else s.put h (s.slot h) (.connect addr opened) out

theorem socketConnect_reports {s : Interface} {h : Slot} (onConnect : Interface → Interface)
    (hopen : (s.gSock h).id ≠ -1) (hans : Answered h (s.slot h) (.connect addr opened)) :
    Reports onConnect s h addr opened := by
  unfold Reports
  rcases hans hopen with hok | ⟨hno, -⟩
  · obtain ⟨hsock, hnext⟩ := connectEnter_ok (s.gSock h) addr hok
    have hatt := attempted_of_first hok
    simp only [socketConnect, hsock, hnext, connectNext, hatt, if_true]
    by_cases hcb : (s.gSock h).callback.isSome = true
    · simp only [hcb, if_true, finish]
      exact ⟨trivial, _, rfl⟩
    · simp only [hcb, Bool.false_eq_true, if_false, finish]
      exact ⟨trivial, _, rfl⟩
  · have h0 : opened 0 = false := by simpa using fun h0 => hno ⟨0, by omega, h0⟩
    have h1 : opened 1 = false := by simpa using fun h1 => hno ⟨1, by omega, h1⟩
    obtain ⟨hsock, hnext⟩ := connectEnter_error (s.gSock h) addr h0 h1
    simp only [socketConnect, hsock, hnext, hno, if_false, finish]
    exact ⟨by simp [nsapiErrorDeviceError, nsapiErrorOk], _, rfl⟩

/-- A `socket_connect` on an open socket that is not answered returns an error for an attempt that
succeeded, or it leaves the socket connected without a link. -/
theorem connect_unanswered (hopen : st.sock.id = i.val)
    (hans : ¬ Answered i st (.connect addr opened)) :
    (Attempted opened ∧
      (connectEnter st.sock addr opened).2.2 = .ret nsapiErrorDeviceError) ∨
    ((st.step i (.connect addr opened)).1.sock.connected = true ∧
      (link i).run r (st.step i (.connect addr opened)).2 = none) := by
  obtain ⟨-, hnot⟩ := Classical.not_imp.mp hans
  obtain ⟨hfirst, hlast⟩ := not_or.mp hnot
  have h0 : opened 0 = false := by simpa using fun h0 => hfirst (.inl h0)
  have h1 : opened 1 = false := by simpa using fun h1 => hfirst (.inr h1)
  obtain ⟨hsock, hnext⟩ := connectEnter_error st.sock addr h0 h1
  by_cases hatt : Attempted opened
  · exact .inl ⟨hatt, hnext⟩
  · have hconn : st.sock.connected = true := by simpa [hatt] using hlast
    refine .inr ⟨?_, ?_⟩
    · show (connectEnter st.sock addr opened).1.connected = true
      rw [hsock, hconn]
    · show (link i).run r (connectEnter st.sock addr opened).2.1 = none
      rw [connectEnter_link hopen, if_neg hatt]

theorem linkFits_ctor (raw : Slot → SlotState) (i : Slot) : LinkFits i ((ctor raw).slot i) none :=
  ⟨.inl rfl, fun h => absurd h (by show (-1 : Int) ≠ _; omega), fun _ => rfl⟩

theorem linkFits_reachable {raw : Slot → SlotState} {s : Interface} (hr : Reachable raw s)
    {up past : Trace} (ht : s.trace = up ++ past)
    (hans : Along SlotState.step Answered (ctor raw).slot past) (i : Slot) :
    LinkFits i (slotAfter raw past i) (linkOf i past) := by
  obtain ⟨-, -, hh, hal⟩ := hr.good
  rw [ht] at hh hal
  exact linkFits_along (linkFits_ctor raw) (honest_append.mp hh).2 (along_append.mp hal).2 hans i

/-- **`connected` is true to the link.** Take the acts of a reachable state up to any point, all
answered. There an open socket is connected if and only if its link is open, and the link of a
closed socket is closed. An answered `socket_connect` returns `NSAPI_ERROR_OK`, stores the address
and makes the call-back if and only if one of its attempts succeeds. After `socket_close` the link
is closed. One that is not answered breaks this. -/
theorem connected_iff_link {raw : Slot → SlotState} {s : Interface} (hr : Reachable raw s)
    {up past : Trace} (ht : s.trace = up ++ past)
    (hans : Along SlotState.step Answered (ctor raw).slot past) :
    (∀ i, ((slotAfter raw past i).sock.id = i.val →
        ((slotAfter raw past i).sock.connected = true ↔ (linkOf i past).isSome = true)) ∧
      ((slotAfter raw past i).sock.id = -1 → linkOf i past = none)) ∧
    (∀ (s : Interface) h onConnect addr opened, (s.gSock h).id ≠ -1 →
      Answered h (s.slot h) (.connect addr opened) → Reports onConnect s h addr opened) ∧
    (∀ i out rest, past = ⟨i, .close, out⟩ :: rest → linkOf i past = none) ∧
    ∀ i addr opened, (slotAfter raw past i).sock.id = i.val →
      ¬ Answered i (slotAfter raw past i) (.connect addr opened) →
      (Attempted opened ∧ (connectEnter (slotAfter raw past i).sock addr opened).2.2 =
        .ret nsapiErrorDeviceError) ∨
      (((slotAfter raw past i).step i (.connect addr opened)).1.sock.connected = true ∧
        (link i).run (linkOf i past) ((slotAfter raw past i).step i (.connect addr opened)).2 =
          none) := by
  have hfits := linkFits_reachable hr ht hans
  refine ⟨fun i => ⟨(hfits i).opened, (hfits i).closed⟩, fun s h onConnect addr opened hopen hans =>
    socketConnect_reports onConnect hopen hans, fun i out rest hpast => ?_,
    fun i addr opened hopen hans => connect_unanswered hopen hans⟩
  subst hpast
  refine (hfits i).closed ?_
  rw [slotAfter, after_cons_self rfl]
  rfl

/-- A `socket_connect` whose first attempt fails. -/
def secondAttempt : List Label :=
  [.call (.open .nsapiTcp) .done .done, .call (.connect 0 ⟨"10.0.0.1", 80⟩ (· == 1)) .done .done]

theorem connected_iff_link_secondAttempt :
    (slotAfter (fun _ => zeroSlot) (afterSteps secondAttempt).trace 0).sock.connected = true ↔
      (linkOf 0 (afterSteps secondAttempt).trace).isSome = true := by
  have hreach : Reachable _ (afterSteps secondAttempt) := afterSteps_reachable (by decide)
  have h := connected_iff_link hreach
    (show (afterSteps secondAttempt).trace = [] ++ (afterSteps secondAttempt).trace from rfl)
    (by decide)
  exact (h.1 0).1 (by decide)

/-- A `socket_connect` whose first two attempts fail. -/
def thirdAttempt : List Label :=
  [.call (.open .nsapiTcp) .done .done, .call (.connect 0 ⟨"10.0.0.1", 80⟩ (· == 2)) .done .done]

/-- After a success of the third attempt the link is open, and the socket is not connected. -/
theorem connected_iff_link_thirdAttempt :
    ¬ ∀ raw s, Reachable raw s → ∀ i, (s.gSock i).id = i.val →
      ((s.gSock i).connected = true ↔ (linkOf i s.trace).isSome = true) := by
  intro h
  have hlink : (linkOf 0 (afterSteps thirdAttempt).trace).isSome = true := by decide
  have hconn : ((afterSteps thirdAttempt).gSock 0).connected = false := by decide
  have := (h _ _ (afterSteps_reachable (by decide)) 0 (by decide)).mpr hlink
  simp [hconn] at this

end Bg96
