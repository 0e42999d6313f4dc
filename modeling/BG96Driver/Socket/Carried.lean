import BG96Driver.Socket.Link

/-!
# The links that carry the transfers

A transmission is handed to the modem in chunks, and a read is polled for. Each of these commands is
for the modem's link of an `id`, and the driver does not look at the address that the link is open
to.

* `carried`: the parts of the latest transfer, each with the address of the link that carried it. It
  is a monitor of what a socket shows; `sentOver` and `receivedOver` are for the two directions.
* `AddrFits`: the link of a connected socket is open to the address that is stored in the socket.
* `Addressed`: the acts that keep this, and leave a transfer that is not collected its address.
* `TxCarried`, `RxCarried`: after such acts the stored address is that of every part.
-/

namespace Bg96

open History Interface

/-! ## The monitors -/

/-- The open link of a socket, and the parts of its latest transfer: for each part the address of
the link that carried it, and the number of bytes. -/
structure Carried where
  link : Option SocketAddress
  parts : List (Option SocketAddress × Nat)
  ended : Bool

/-- The parts so far of the transfer that the next part belongs to. -/
def Carried.live (r : Carried) : List (Option SocketAddress × Nat) :=
  if r.ended then [] else r.parts

/-- The monitor of the transfers of a socket: `part` gives the `id` and the bytes of a part. A
transfer that has ended is replaced by the next one. -/
def carried (i : Slot) (part : Out → Option (Int × Nat)) (ends : Out → Bool) :
    Monitor Carried Out where
  init := ⟨none, [], true⟩
  next r x :=
    match part x with
    | some (id, n) =>
      ⟨(link i).next r.link x, r.live ++ [(if id = i.val then r.link else none, n)], false⟩
    | none => ⟨(link i).next r.link x, r.parts, r.ended || ends x⟩
  ok _ _ := True

/-- The bytes that `BG96::send` takes. -/
def Out.sentPart : Out → Option (Int × Nat)
  | .modemSend id _ amount ok => some (id, if ok then amount else 0)
  | _ => none

/-- A transmission is returned or dropped. -/
def Out.sendEnds : Out → Bool
  | .txCollect _ | .ret .socketOpen _ | .ret .socketClose _ => true
  | _ => false

/-- The bytes that `BG96::recv` counts. -/
def Out.receivedPart : Out → Option (Int × Nat)
  | .modemRecv id _ _ cnt => some (id, cnt.toNat)
  | _ => none

/-- A read starts, is returned or is dropped. -/
def Out.recvEnds : Out → Bool
  | .rxStart .. | .rxCollect _ | .ret .socketOpen _ | .ret .socketClose _ => true
  | _ => false

def sentOver (i : Slot) : Monitor Carried Out := carried i Out.sentPart Out.sendEnds

def receivedOver (i : Slot) : Monitor Carried Out := carried i Out.receivedPart Out.recvEnds

/-- The bytes of the parts were carried by links to `addr`. -/
def Via (addr : SocketAddress) (parts : List (Option SocketAddress × Nat)) : Prop :=
  ∀ p ∈ parts, 0 < p.2 → p.1 = some addr

/-- The number of bytes of the parts. -/
def partBytes (parts : List (Option SocketAddress × Nat)) : Nat := (parts.map Prod.snd).sum

variable {i : Slot} {part : Out → Option (Int × Nat)} {ends : Out → Bool} {r : Carried}
  {o : List Out} {addr : SocketAddress} {parts : List (Option SocketAddress × Nat)}

theorem via_append {parts' : List (Option SocketAddress × Nat)} (h : Via addr parts)
    (h' : Via addr parts') : Via addr (parts ++ parts') :=
  fun p hp => (List.mem_append.mp hp).elim (h p) (h' p)

theorem via_single (n : Nat) : Via addr [(some addr, n)] := by
  rintro p hp -
  rw [List.mem_singleton.mp hp]

theorem via_of_zero (h : ∀ p ∈ parts, p.2 = 0) : Via addr parts := by
  intro p hp hpos
  rw [h p hp] at hpos
  cases hpos

theorem partBytes_snoc (l : Option SocketAddress) (n : Nat) :
    partBytes (parts ++ [(l, n)]) = partBytes parts + n := by
  simp [partBytes]

variable (i part ends) in
/-- The monitor sees the link as `link` does. -/
theorem carried_link (r : Carried) (o : List Out) :
    ((carried i part ends).run r o).link = (link i).run r.link o := by
  induction o generalizing r with
  | nil => rfl
  | cons x o ih =>
    rw [Monitor.run_cons, Monitor.run_cons, ih]
    congr 1
    simp only [carried]
    split <;> rfl

/-- What is no part and no end leaves the transfer alone. -/
theorem carried_silent (h : ∀ x ∈ o, part x = none ∧ ends x = false) :
    (carried i part ends).run r o = ⟨(link i).run r.link o, r.parts, r.ended⟩ := by
  induction o generalizing r with
  | nil => rfl
  | cons x o ih =>
    obtain ⟨hpart, hends⟩ := h x List.mem_cons_self
    have hnext : (carried i part ends).next r x = ⟨(link i).next r.link x, r.parts, r.ended⟩ := by
      simp [carried, hpart, hends]
    rw [Monitor.run_cons, hnext, ih fun y hy => h y (List.mem_cons_of_mem _ hy)]
    rfl

theorem sentOver_silent {l : List Side} (h : OutsOf l o) (hsend : .send ∉ l)
    (hsession : .session ∉ l) :
    (sentOver i).run r o = ⟨(link i).run r.link o, r.parts, r.ended⟩ := by
  refine carried_silent fun x hx => ?_
  have h₁ := h.ne hsend (by decide) x hx
  have h₂ := h.ne hsession (by decide) x hx
  cases x with
  | ret f n => cases f <;> first | exact ⟨rfl, rfl⟩ | exact absurd rfl h₂
  | modemSend | txCollect => exact absurd rfl h₁
  | _ => exact ⟨rfl, rfl⟩

theorem receivedOver_silent {l : List Side} (h : OutsOf l o) (hreceive : .receive ∉ l)
    (hsession : .session ∉ l) :
    (receivedOver i).run r o = ⟨(link i).run r.link o, r.parts, r.ended⟩ := by
  refine carried_silent fun x hx => ?_
  have h₁ := h.ne hreceive (by decide) x hx
  have h₂ := h.ne hsession (by decide) x hx
  cases x with
  | ret f n => cases f <;> first | exact ⟨rfl, rfl⟩ | exact absurd rfl h₂
  | modemRecv | rxStart | rxCollect => exact absurd rfl h₁
  | _ => exact ⟨rfl, rfl⟩

/-! ## The address of the link -/

variable {st : SlotState} {a : Act} {l : Option SocketAddress}

/-- The read has completed, and is not collected. -/
def RxEvent.Full (rx : RxEvent) : Prop := rx.mRxState = .dataAvailable ∨ rx.mRxState = .readDocb

instance (rx : RxEvent) : Decidable rx.Full := inferInstanceAs (Decidable (_ ∨ _))

/-- No transfer of the socket waits to be collected. -/
def Collected (st : SlotState) : Prop := st.tx.mTxState = .txIdle ∧ ¬ st.rx.Full

instance (st : SlotState) : Decidable (Collected st) := inferInstanceAs (Decidable (_ ∧ _))

/-- The acts of the slot `i` after which the stored address is that of the link. A `socket_connect`
that succeeds goes to the same address again, or finds no transfer that waits to be collected. One
that fails finds the socket not connected, or its third attempt has opened the link to the same
address again. A transmission starts on a connected socket. -/
def Addressed (i k : Slot) (st : SlotState) (a : Act) : Prop :=
  k = i → match a with
    | .connect addr opened => st.sock.id = i.val →
      if opened 0 = true ∨ opened 1 = true then
        st.sock.connected = true ∧ addr = st.sock.addr ∨ Collected st
      else st.sock.connected = true → opened 2 = true ∧ addr = st.sock.addr
    | .send data size _ =>
      1 ≤ size → data ≠ 0 → st.tx.mTxState = .txIdle → st.sock.connected = true
    | _ => True

instance (i k : Slot) (st : SlotState) (a : Act) : Decidable (Addressed i k st a) :=
  match a with
  | .connect addr opened => inferInstanceAs (Decidable (_ → _ →
      if opened 0 = true ∨ opened 1 = true then
        st.sock.connected = true ∧ addr = st.sock.addr ∨ Collected st
      else st.sock.connected = true → opened 2 = true ∧ addr = st.sock.addr))
  | .send data size _ => inferInstanceAs (Decidable (_ → 1 ≤ size → data ≠ 0 → _ → _))
  | .open _ | .close | .attach .. | .listen | .connectRet | .sendRet | .recv .. | .recvRet
  | .recvfrom | .setsockopt .. | .getsockopt .. | .poll .. | .fireRx | .fireTx =>
    isTrue fun _ => trivial

/-- The link `l` of a connected socket is open to the address that is stored in the socket. -/
structure AddrFits (i : Slot) (st : SlotState) (l : Option SocketAddress) : Prop where
  id : st.sock.id = -1 ∨ st.sock.id = i.val
  fits : st.sock.id = i.val → st.sock.connected = true → l = some st.sock.addr

/-- Only `socket_connect` stores an address. -/
theorem step_addr (ha : ∀ addr opened, a ≠ .connect addr opened) :
    (st.step i a).1.sock.addr = st.sock.addr := by
  cases a with
  | connect addr opened => exact absurd rfl (ha addr opened)
  | listen => dsimp only [SlotState.step, Bg96.listen]; split <;> rfl
  | setsockopt =>
    dsimp only [SlotState.step, Bg96.setsockopt]
    repeat' split
    all_goals rfl
  | _ => rfl

/-- An addressed `socket_connect` changes the socket only if no transfer waits to be collected. -/
theorem Addressed.frame (h : Addressed i i st a) (hid : st.sock.id = i.val)
    (hs : .session ∉ a.sides) :
    (st.step i a).1.sock.connected = st.sock.connected ∧
        (st.step i a).1.sock.addr = st.sock.addr ∨
      (st.step i a).1.sock.connected = true ∧ Collected st := by
  by_cases ha : ∀ addr opened, a ≠ .connect addr opened
  · exact .inl ⟨step_connected ha hs, step_addr ha⟩
  · simp only [ne_eq, not_forall, Classical.not_not] at ha
    obtain ⟨addr, opened, rfl⟩ := ha
    have h := h rfl hid
    by_cases hok : opened 0 = true ∨ opened 1 = true
    · rw [if_pos hok] at h
      simp only [SlotState.step, (connectEnter_ok st.sock addr hok).1]
      obtain ⟨hconn, haddr⟩ | hcollected := h
      · exact .inl ⟨hconn.symm, haddr⟩
      · exact .inr ⟨trivial, hcollected⟩
    · obtain ⟨h0, h1⟩ := not_or.mp hok
      simp only [SlotState.step, (connectEnter_error st.sock addr (by simpa using h0)
        (by simpa using h1)).1]
      exact .inl ⟨trivial, trivial⟩

/-- An addressed `socket_connect` leaves a connected socket connected, and its address alone if a
transfer waits to be collected. -/
theorem Addressed.keeps (h : Addressed i i st a) (hid : st.sock.id = i.val)
    (hconn : st.sock.connected = true) (hs : .session ∉ a.sides) :
    (st.step i a).1.sock.connected = true ∧
      (¬ Collected st → (st.step i a).1.sock.addr = st.sock.addr) := by
  obtain ⟨hconn', haddr⟩ | ⟨hconn', hcollected⟩ := h.frame hid hs
  · exact ⟨hconn'.trans hconn, fun _ => haddr⟩
  · exact ⟨hconn', fun hbusy => absurd hcollected hbusy⟩

/-- An addressed `socket_connect` connects no socket with a transfer that waits to be collected. -/
theorem Addressed.connected (h : Addressed i i st a) (hid : st.sock.id = i.val)
    (hbusy : ¬ Collected st) (hs : .session ∉ a.sides)
    (hconn : (st.step i a).1.sock.connected = true) : st.sock.connected = true := by
  obtain ⟨hconn', -⟩ | ⟨-, hcollected⟩ := h.frame hid hs
  · exact hconn'.symm.trans hconn
  · exact absurd hcollected hbusy

theorem AddrFits.connect {opened : Nat → Bool} (h : AddrFits i st l)
    (hadd : Addressed i i st (.connect addr opened)) :
    AddrFits i (st.step i (.connect addr opened)).1
      ((link i).run l (st.step i (.connect addr opened)).2) := by
  have hid : (st.step i (.connect addr opened)).1.sock.id = st.sock.id := connectEnter_id ..
  refine ⟨by rw [hid]; exact h.id, fun hopen hconn => ?_⟩
  rw [hid] at hopen
  have hadd := hadd rfl hopen
  show (link i).run l (connectEnter st.sock addr opened).2.1 =
    some (connectEnter st.sock addr opened).1.addr
  rw [connectEnter_link hopen]
  by_cases hok : opened 0 = true ∨ opened 1 = true
  · rw [(connectEnter_ok st.sock addr hok).1, if_pos (attempted_of_first hok)]
  · rw [if_neg hok] at hadd
    obtain ⟨h0, h1⟩ := not_or.mp hok
    have hsock := (connectEnter_error st.sock addr (by simpa using h0) (by simpa using h1)).1
    have hconn : (connectEnter st.sock addr opened).1.connected = true := hconn
    rw [hsock] at hconn ⊢
    -- the third attempt has opened the link, and the socket has kept its address
    obtain ⟨h2, rfl⟩ := hadd hconn
    rw [if_pos ⟨2, by omega, h2⟩]

/-- **Step.** An addressed act keeps the stored address true to the link. -/
theorem AddrFits.step (h : AddrFits i st l) (hadd : Addressed i i st a) :
    AddrFits i (st.step i a).1 ((link i).run l (st.step i a).2) := by
  by_cases ha : ∀ addr opened, a ≠ .connect addr opened
  · by_cases hs : .session ∈ a.sides
    · refine ⟨SlotState.step_id_or h.id a, fun hopen hconn => ?_⟩
      cases a with
      | «open» => cases hconn
      | close => cases hconn
      | _ => simp [Act.sides] at hs
    · have hclose : a ≠ .close := by
        rintro rfl
        exact hs List.mem_cons_self
      have hid : (st.step i a).1.sock.id = st.sock.id := SlotState.step_id hs
      rw [(step_noLink i st ha hclose).run]
      refine ⟨by rw [hid]; exact h.id, fun hopen hconn => ?_⟩
      rw [step_addr ha]
      rw [step_connected ha hs] at hconn
      exact h.fits (hid.symm.trans hopen) hconn
  · simp only [ne_eq, not_forall, Classical.not_not] at ha
    obtain ⟨addr, opened, rfl⟩ := ha
    exact h.connect hadd

/-! ## Transmissions -/

variable {tx tx' : TxEvent} {done : Bool} {event : Event}

/-- The transmission has parts, and links to `addr` carried their bytes. -/
structure SentVia (addr : SocketAddress) (r : Carried) : Prop where
  started : r.parts ≠ []
  via : Via addr r.parts

/-- A transmission of the socket is not collected: links to the stored address carried it. -/
structure Underway (i : Slot) (st : SlotState) (r : Carried) : Prop where
  id : st.sock.id = i.val
  connected : st.sock.connected = true
  txId : st.tx.mTxSocketID = i.val
  live : r.ended = false
  sent : SentVia st.sock.addr r

/-- The invariant of the transmissions of a socket. -/
structure TxCarried (i : Slot) (st : SlotState) (r : Carried) : Prop where
  addr : AddrFits i st r.link
  idle : st.tx.mTxState = .txIdle → r.ended = true
  busy : st.tx.mTxState ≠ .txIdle → Underway i st r
  total : r.parts ≠ [] → st.tx.mTxTotalSent = partBytes r.parts % 2 ^ 32

theorem Underway.live_eq (h : Underway i st r) : r.live = r.parts := by
  rw [Carried.live, h.live]
  rfl

/-- **`tx_event`** adds a part, which the open link carries. -/
theorem TxCase.carried (hc : TxCase tx done tx' o event) (hid : tx.mTxSocketID = i.val)
    (htotal : tx.mTxTotalSent = partBytes r.live % 2 ^ 32) :
    (∃ n, (sentOver i).run r o = ⟨r.link, r.live ++ [(r.link, n)], false⟩) ∧
      tx'.mTxSocketID = i.val ∧
      tx'.mTxTotalSent = partBytes ((sentOver i).run r o).parts % 2 ^ 32 := by
  have hsent : u32Add tx.mTxTotalSent tx.mTxReqSize =
      partBytes (r.live ++ [(r.link, tx.mTxReqSize)]) % 2 ^ 32 := by
    rw [partBytes_snoc, u32Add, htotal, Nat.mod_add_mod]
  cases hc with
  | idle hdone =>
    subst hdone
    have hrun : (sentOver i).run r [.modemSend tx.mTxSocketID tx.mTxDptr tx.mTxReqSize false] =
        ⟨r.link, r.live ++ [(r.link, 0)], false⟩ := by
      simp [sentOver, carried, Out.sentPart, link, hid]
    refine ⟨⟨_, hrun⟩, hid, ?_⟩
    rw [hrun, partBytes_snoc, htotal, Nat.add_zero]
  | more _ hdone =>
    subst hdone
    have hrun : (sentOver i).run r [.modemSend tx.mTxSocketID tx.mTxDptr tx.mTxReqSize true] =
        ⟨r.link, r.live ++ [(r.link, tx.mTxReqSize)], false⟩ := by
      simp [sentOver, carried, Out.sentPart, link, hid]
    exact ⟨⟨_, hrun⟩, hid, by rw [hrun]; exact hsent⟩
  | last hdone =>
    subst hdone
    have hrun (m : Nat) : (sentOver i).run r
        [.modemSend tx.mTxSocketID tx.mTxDptr tx.mTxReqSize true, .txDone m] =
        ⟨r.link, r.live ++ [(r.link, tx.mTxReqSize)], false⟩ := by
      simp [sentOver, carried, Out.sentPart, Out.sendEnds, link, hid]
    exact ⟨⟨_, hrun _⟩, hid, by rw [hrun]; exact hsent⟩

variable (i r) in
/-- `socket_send` returns a transmission: its parts stay as they are. -/
theorem sentOver_leave (tx : TxEvent) :
    (sentOver i).run r (sendLeave tx).2.1 = ⟨r.link, r.parts, true⟩ := by
  simp [sentOver, carried, sendLeave, Out.sentPart, Out.sendEnds, link]

/-- A part of a transmission of a connected socket. -/
theorem Underway.txEvent {st' : SlotState} (hc : TxCase tx done tx' o event)
    (haddr : AddrFits i st r.link) (hid : st.sock.id = i.val) (hconn : st.sock.connected = true)
    (htxid : tx.mTxSocketID = i.val) (hvia : Via st.sock.addr r.live)
    (htotal : tx.mTxTotalSent = partBytes r.live % 2 ^ 32) (hsock : st'.sock = st.sock)
    (htxid' : st'.tx.mTxSocketID = tx'.mTxSocketID) : Underway i st' ((sentOver i).run r o) := by
  obtain ⟨⟨n, hrun⟩, hid', -⟩ := hc.carried htxid htotal
  rw [hrun, haddr.fits hid hconn]
  refine ⟨by rw [hsock]; exact hid, by rw [hsock]; exact hconn, htxid'.trans hid', rfl, by simp, ?_⟩
  rw [hsock]
  exact via_append hvia (via_single n)

/-- What `socket_send` shows after an event is no part. -/
theorem sentOver_tail {x : Out} (hx : (∃ n, x = .ret .socketSend n) ∨ ∃ f d, x = .callBack f d) :
    (sentOver i).run r (o ++ [x]) = (sentOver i).run r o := by
  rw [Monitor.run_append]
  obtain ⟨n, rfl⟩ | ⟨f, d, rfl⟩ := hx <;>
  simp [sentOver, carried, Out.sentPart, Out.sendEnds, link]

/-- `socket_send` up to its call-back. It returns no positive count, or links to the stored address
carried the transmission. -/
theorem SocketSendCase.carried {data size : Nat} {next : Next} {inSend : Nat}
    (hc : SocketSendCase st.sock st.tx data size done tx' o next) (h : TxCarried i st r)
    (hid : st.sock.id = i.val)
    (hconn : 1 ≤ size → data ≠ 0 → st.tx.mTxState = .txIdle → st.sock.connected = true)
    (haddr : AddrFits i { st with tx := tx', inSend := inSend } ((sentOver i).run r o).link) :
    TxCarried i { st with tx := tx', inSend := inSend } ((sentOver i).run r o) ∧
      (((sentOver i).run r o).parts = r.parts ∧ (∃ n ≤ 0, next = .ret n) ∨
        SentVia st.sock.addr ((sentOver i).run r o)) := by
  -- the first event of a transmission
  have hstart {t : TxEvent} {o : List Out} {event : Event}
      (hc : TxCase (sendStart st.sock data size) done t o event) (hsize : 1 ≤ size)
      (hdata : data ≠ 0) (hidle : st.tx.mTxState = .txIdle) :
      (∀ state, Underway i { st with tx := { t with mTxState := state }, inSend := inSend }
        ((sentOver i).run r o)) ∧
      t.mTxTotalSent = partBytes ((sentOver i).run r o).parts % 2 ^ 32 := by
    have hlive : r.live = [] := by
      rw [Carried.live, h.idle hidle]
      rfl
    have htotal : (sendStart st.sock data size).mTxTotalSent = partBytes r.live % 2 ^ 32 := by
      rw [hlive]
      rfl
    refine ⟨fun state => ?_, (hc.carried hid htotal).2.2⟩
    refine Underway.txEvent hc h.addr hid (hconn hsize hdata hidle) hid ?_ htotal rfl rfl
    rw [hlive]
    exact nofun
  cases hc with
  | refuse n hn hcase =>
    have hrun : (sentOver i).run r [.ret .socketSend n] = r :=
      sentOver_tail (o := []) (.inl ⟨n, rfl⟩)
    rw [hrun] at haddr ⊢
    refine ⟨⟨haddr, h.idle, fun hbusy => ?_, h.total⟩, .inl ⟨rfl, n, hn, rfl⟩⟩
    obtain ⟨hid, hconn, htxid, hlive, hsent⟩ := h.busy hbusy
    exact ⟨hid, hconn, htxid, hlive, hsent⟩
  | collect hsize hdata hstate =>
    obtain ⟨hne, hvia⟩ := (h.busy (by rw [hstate]; nofun)).sent
    rw [sentOver_leave] at haddr ⊢
    exact ⟨⟨haddr, fun _ => rfl, fun hbusy => absurd rfl hbusy, h.total⟩, .inr ⟨hne, hvia⟩⟩
  | block t o hsize hdata hstate hc =>
    obtain ⟨hway, htotal⟩ := hstart hc hsize hdata hstate
    rw [sentOver_tail (.inl ⟨_, rfl⟩)] at haddr ⊢
    exact ⟨⟨haddr, nofun, fun _ => hway .txActive, fun _ => htotal⟩, .inr (hway .txActive).sent⟩
  | callBack t o hsize hdata hstate hc =>
    obtain ⟨hway, htotal⟩ := hstart hc hsize hdata hstate
    rw [sentOver_tail (.inr ⟨_, _, rfl⟩)] at haddr ⊢
    exact ⟨⟨haddr, nofun, fun _ => hway .txComplete, fun _ => htotal⟩,
      .inr (hway .txComplete).sent⟩
  | sync t o hsize hdata hstate hc =>
    obtain ⟨hway, htotal⟩ := hstart hc hsize hdata hstate
    obtain ⟨hne, hvia⟩ := (hway .txIdle).sent
    rw [Monitor.run_append, sentOver_leave] at haddr ⊢
    exact ⟨⟨haddr, fun _ => rfl, fun hbusy => absurd rfl hbusy, fun _ => htotal⟩, .inr ⟨hne, hvia⟩⟩

/-- **Step.** An addressed act keeps the invariant of the transmissions. If it changes the parts,
then links to the stored address carried them. -/
theorem TxCarried.step (h : TxCarried i st r) (ha : SlotState.Allowed i st a)
    (hadd : Addressed i i st a) :
    TxCarried i (st.step i a).1 ((sentOver i).run r (st.step i a).2) ∧
      (((sentOver i).run r (st.step i a).2).parts = r.parts ∨
        SentVia st.sock.addr ((sentOver i).run r (st.step i a).2)) := by
  have haddr : AddrFits i (st.step i a).1 ((sentOver i).run r (st.step i a).2).link := by
    rw [sentOver, carried_link]
    exact h.addr.step hadd
  by_cases hother : .send ∉ a.sides ∧ .session ∉ a.sides ∧ a ≠ .fireTx
  · obtain ⟨hside, hsession, hfire⟩ := hother
    obtain ⟨htx, -⟩ := SlotState.step_tx_frame i st hside hsession hfire
    rw [sentOver_silent (SlotState.step_sides i st a) hside hsession] at haddr ⊢
    refine ⟨⟨haddr, ?_, ?_, ?_⟩, .inl rfl⟩ <;> rw [htx]
    · exact h.idle
    · intro hbusy
      obtain ⟨hid, hconn, htxid, hlive, hne, hvia⟩ := h.busy hbusy
      obtain ⟨hconn', hkeep⟩ := hadd.keeps hid hconn hsession
      refine ⟨(SlotState.step_id hsession).trans hid, hconn', by rw [htx]; exact htxid, hlive, ?_⟩
      rw [hkeep fun hc => hbusy hc.1]
      exact ⟨hne, hvia⟩
    · exact h.total
  · cases a with
    | «open» proto =>
      have hrun : (sentOver i).run r (st.step i (.open proto)).2 = ⟨r.link, r.parts, true⟩ := by
        simp [SlotState.step, sentOver, carried, Out.sentPart, Out.sendEnds, link]
      rw [hrun] at haddr ⊢
      exact ⟨⟨haddr, fun _ => rfl, fun hbusy => absurd rfl hbusy, h.total⟩, .inl rfl⟩
    | close =>
      have hrun : ∃ l, (sentOver i).run r (st.step i .close).2 = ⟨l, r.parts, true⟩ := by
        simp only [SlotState.step, closeSocket]
        split <;> exact ⟨_, by simp [sentOver, carried, Out.sentPart, Out.sendEnds]; rfl⟩
      obtain ⟨l, hrun⟩ := hrun
      rw [hrun] at haddr ⊢
      exact ⟨⟨haddr, fun _ => rfl, fun hbusy => absurd rfl hbusy, h.total⟩, .inl rfl⟩
    | send p n done =>
      rcases he : sendEnter st.sock st.tx p n done with ⟨tx, out, next⟩
      simp only [SlotState.step, he] at haddr ⊢
      obtain ⟨hcarried, hparts⟩ := (sendEnter_cases he).carried h ha (hadd rfl) haddr
      exact ⟨hcarried, hparts.imp_left And.left⟩
    | sendRet =>
      simp only [SlotState.step] at haddr ⊢
      rw [sentOver_leave] at haddr ⊢
      exact ⟨⟨haddr, fun _ => rfl, fun hbusy => absurd rfl hbusy, h.total⟩, .inl rfl⟩
    | poll res done g =>
      rcases hr : pollRx st.rx res g with ⟨rx, out, event, g'⟩
      rcases ht : pollTx st.tx done g' with ⟨tx, out', event', g''⟩
      have hrx : (sentOver i).run r out = ⟨(link i).run r.link out, r.parts, r.ended⟩ :=
        sentOver_silent (pollRx_cases hr).sides (by simp) (by simp)
      rw [(pollRx_cases hr).noLink.run] at hrx
      simp only [SlotState.step, hr, ht, Monitor.run_append, hrx] at haddr ⊢
      cases pollTx_cases ht with
      | pass =>
        refine ⟨⟨haddr, h.idle, fun hbusy => ?_, h.total⟩, .inl rfl⟩
        obtain ⟨hid, hconn, htxid, hlive, hne, hvia⟩ := h.busy hbusy
        exact ⟨hid, hconn, htxid, hlive, hne, hvia⟩
      | poll _ _ _ hactive hc =>
        have hway := h.busy (by rw [hactive]; rintro ⟨⟩)
        have hvia : Via st.sock.addr r.live := by
          rw [hway.live_eq]
          exact hway.sent.via
        have htotal : st.tx.mTxTotalSent = partBytes r.live % 2 ^ 32 := by
          rw [hway.live_eq]
          exact h.total hway.sent.started
        have hway' : Underway i { st with rx := rx, tx := tx } ((sentOver i).run r out') :=
          .txEvent hc h.addr hway.id hway.connected hway.txId hvia htotal rfl rfl
        obtain ⟨-, -, htotal'⟩ := hc.carried hway.txId htotal
        refine ⟨⟨haddr, fun hidle => ?_, fun _ => hway', fun _ => htotal'⟩, .inr hway'.sent⟩
        -- the event leaves the transmission active or completes it
        exfalso
        cases hc with
        | idle | more => rw [hactive] at hidle; cases hidle
        | last =>
          dsimp only at hidle
          split at hidle <;> cases hidle
    | fireTx =>
      have hrun : (sentOver i).run r (st.step i .fireTx).2 = r := by
        simp only [SlotState.step, Bg96.fireTx]
        split
        · exact sentOver_tail (o := []) (.inr ⟨_, _, rfl⟩)
        · rfl
      rw [hrun] at haddr ⊢
      simp only [SlotState.step, Bg96.fireTx] at haddr ⊢
      split
      · rename_i hdocb
        obtain ⟨hid, hconn, htxid, hlive, hne, hvia⟩ := h.busy (by rw [hdocb]; rintro ⟨⟩)
        exact ⟨⟨⟨haddr.id, haddr.fits⟩, by rintro ⟨⟩, fun _ => ⟨hid, hconn, htxid, hlive, hne, hvia⟩,
          h.total⟩, .inl trivial⟩
      · exact ⟨h, .inl trivial⟩
    | _ => exact absurd ⟨by simp [Act.sides], by simp [Act.sides], by simp⟩ hother

/-! ## Reads -/

variable {rx rx' : RxEvent} {res : RecvResult}

/-- The read has completed: its bytes were carried by links to `addr`, and there are some if its
count is positive. -/
structure Received (addr : SocketAddress) (rx : RxEvent) (r : Carried) : Prop where
  via : Via addr r.parts
  bytes : 0 < rx.mRxReturnCnt → ∃ p ∈ r.parts, 0 < p.2

theorem Received.frame {r' : Carried} (h : Received addr rx r) (hparts : r'.parts = r.parts)
    (hcnt : rx'.mRxReturnCnt = rx.mRxReturnCnt) : Received addr rx' r' := by
  refine ⟨by rw [hparts]; exact h.via, fun hpos => ?_⟩
  rw [hparts]
  exact h.bytes (hcnt ▸ hpos)

/-- The invariant of the reads of a socket. A completed read that a link without address has carried
is of a socket that was not connected. -/
structure RxCarried (i : Slot) (st : SlotState) (r : Carried) : Prop where
  addr : AddrFits i st r.link
  polled : st.rx.mRxState = .readActive ∨ st.rx.mRxDisTO = true → st.rx.mRxSocketID = i.val
  waits : ¬ st.rx.Full → ∀ p ∈ r.live, p.2 = 0
  full : st.rx.Full → st.sock.id = i.val → st.sock.connected = true →
    r.ended = false ∧ Received st.sock.addr st.rx r

/-- **`rx_event`** adds a part, which the open link carries, and completes the read if it has
bytes. -/
theorem RxCase.carried (hc : RxCase rx res rx' o event) (hid : rx.mRxSocketID = i.val) :
    (receivedOver i).run r o = ⟨r.link, r.live ++ [(r.link, res.cnt.toNat)], false⟩ ∧
      rx'.mRxSocketID = i.val ∧ rx'.mRxDisTO = rx.mRxDisTO ∧
      (event = eventGetmore ∧ res.cnt ≤ 0 ∧ rx'.mRxState = rx.mRxState ∧
          rx'.mRxReturnCnt = rx.mRxReturnCnt ∨
        event = eventComplete ∧ rx'.Full ∧ (0 < res.cnt ∨ rx'.mRxReturnCnt = 0)) := by
  cases hc with
  | error hcnt =>
    refine ⟨?_, hid, rfl, .inl ⟨rfl, by rw [hcnt]; decide, rfl, rfl⟩⟩
    simp [receivedOver, carried, Out.receivedPart, Out.recvEnds, link, hid]
  | idle hcnt =>
    refine ⟨?_, hid, rfl, .inl ⟨rfl, hcnt, rfl, rfl⟩⟩
    simp [receivedOver, carried, Out.receivedPart, Out.recvEnds, link, hid]
  | data hcnt =>
    refine ⟨?_, hid, rfl, .inr ⟨rfl, completed_state _, .inl hcnt⟩⟩
    simp [receivedOver, carried, Out.receivedPart, Out.recvEnds, link, hid]
  | timeout hcnt =>
    refine ⟨?_, hid, rfl, .inr ⟨rfl, completed_state _, .inr rfl⟩⟩
    simp [receivedOver, carried, Out.receivedPart, Out.recvEnds, link, hid]

/-- An event of a read whose socket is polled, or starts it. -/
theorem RxCase.received (hc : RxCase rx res rx' o event) (hid : rx.mRxSocketID = i.val)
    (haddr : AddrFits i st r.link) (hwaits : ¬ rx.Full → ∀ p ∈ r.live, p.2 = 0)
    (hfull : rx.Full → st.sock.id = i.val → st.sock.connected = true →
      r.ended = false ∧ Received st.sock.addr rx r) :
    (¬ rx'.Full → ∀ p ∈ ((receivedOver i).run r o).live, p.2 = 0) ∧
      (rx'.Full → st.sock.id = i.val → st.sock.connected = true →
        ((receivedOver i).run r o).ended = false ∧
          Received st.sock.addr rx' ((receivedOver i).run r o)) := by
  obtain ⟨hrun, -, -, hcase⟩ := hc.carried (r := r) hid
  rw [hrun]
  have hvia (hopen : st.sock.id = i.val) (hconn : st.sock.connected = true) :
      Via st.sock.addr (r.live ++ [(r.link, res.cnt.toNat)]) := by
    rw [haddr.fits hopen hconn]
    refine via_append ?_ (via_single _)
    by_cases hf : rx.Full
    · obtain ⟨hlive, hvia, -⟩ := hfull hf hopen hconn
      rw [Carried.live, hlive]
      exact hvia
    · exact via_of_zero (hwaits hf)
  obtain ⟨-, hcnt, hstate, hret⟩ | ⟨-, hf, hdata⟩ := hcase
  · have hiff : rx'.Full ↔ rx.Full := by rw [RxEvent.Full, RxEvent.Full, hstate]
    refine ⟨fun hf p hp => ?_, fun hf hopen hconn => ⟨rfl, hvia hopen hconn, fun hpos => ?_⟩⟩
    · rcases List.mem_append.mp hp with hp | hp
      · exact hwaits (hiff.not.mp hf) p hp
      · rw [List.mem_singleton.mp hp]
        exact Int.toNat_of_nonpos hcnt
    · obtain ⟨hlive, -, hbytes⟩ := hfull (hiff.mp hf) hopen hconn
      obtain ⟨p, hp, hp0⟩ := hbytes (hret ▸ hpos)
      rw [Carried.live, hlive]
      exact ⟨p, List.mem_append_left _ hp, hp0⟩
  · refine ⟨fun hnot => absurd hf hnot, fun _ hopen hconn =>
      ⟨rfl, hvia hopen hconn, fun hpos => ?_⟩⟩
    rcases hdata with hdata | hzero
    · exact ⟨_, List.mem_append_right _ List.mem_cons_self, by simpa using hdata⟩
    · omega

variable (i r) in
/-- `socket_recv` returns a read: its parts stay as they are. -/
theorem receivedOver_leave (rx : RxEvent) :
    (receivedOver i).run r (recvLeave rx).2.1 = ⟨r.link, r.parts, true⟩ := by
  simp [receivedOver, carried, recvLeave, Out.receivedPart, Out.recvEnds, link]

/-- What `socket_recv` shows after an event is no part. -/
theorem receivedOver_tail {x : Out}
    (hx : (∃ n, x = .ret .socketRecv n) ∨ ∃ f d, x = .callBack f d) :
    (receivedOver i).run r (o ++ [x]) = (receivedOver i).run r o := by
  rw [Monitor.run_append]
  obtain ⟨n, rfl⟩ | ⟨f, d, rfl⟩ := hx <;>
  simp [receivedOver, carried, Out.receivedPart, Out.recvEnds, link]

variable (i r) in
theorem receivedOver_start (data req : Nat) (o : List Out) :
    (receivedOver i).run r (.rxStart data req :: o) =
      (receivedOver i).run ⟨r.link, r.parts, true⟩ o := by
  simp [receivedOver, carried, Out.receivedPart, Out.recvEnds, link]

/-- A read that is not there, or no longer. -/
theorem RxCarried.none {st' : SlotState} (haddr : AddrFits i st' r.link)
    (hpolled : st'.rx.mRxDisTO = true → st'.rx.mRxSocketID = i.val)
    (hstart : st'.rx.mRxState = .readStart) (hended : r.ended = true) : RxCarried i st' r := by
  refine ⟨haddr, fun hp => hpolled (hp.resolve_left (by rw [hstart]; nofun)), fun _ => ?_,
    fun hf => ?_⟩
  · rw [Carried.live, hended]
    exact List.forall_mem_nil _
  · rw [RxEvent.Full, hstart] at hf
    rcases hf with hf | hf <;> cases hf

/-- `socket_recv` up to its call-back. It returns no positive count, or links to the stored address
carried the bytes that a connected socket has received. -/
theorem SocketRecvCase.carried {data size : Nat} {next : Next} {inRecv : Nat}
    (hc : SocketRecvCase st.sock st.rx data size res rx' o next) (h : RxCarried i st r)
    (hid : st.sock.id = i.val)
    (haddr : AddrFits i { st with rx := rx', inRecv := inRecv } ((receivedOver i).run r o).link) :
    RxCarried i { st with rx := rx', inRecv := inRecv } ((receivedOver i).run r o) ∧
      (((receivedOver i).run r o).parts = r.parts ∧ rx'.mRxReturnCnt = st.rx.mRxReturnCnt ∧
          (∃ n ≤ 0, next = .ret n) ∨
        (st.sock.connected = true → Received st.sock.addr rx' ((receivedOver i).run r o))) := by
  -- the first event of a read
  have hstart {t : RxEvent} {o : List Out} {event : Event}
      (hc : RxCase (recvStart st.sock data size) res t o event) :=
    hc.received (r := ⟨r.link, r.parts, true⟩) hid h.addr
      (fun _ => List.forall_mem_nil _) (fun hf => by rcases hf with hf | hf <;> cases hf)
  cases hc with
  | refuse n hn hcase =>
    have hrun : (receivedOver i).run r [.ret .socketRecv n] = r :=
      receivedOver_tail (o := []) (.inl ⟨n, rfl⟩)
    rw [hrun] at haddr ⊢
    exact ⟨⟨haddr, h.polled, h.waits, h.full⟩, .inl ⟨rfl, rfl, n, hn, rfl⟩⟩
  | collect hsize hdata hstate =>
    rw [receivedOver_leave] at haddr ⊢
    refine ⟨.none haddr (fun hdis => h.polled (.inr hdis)) rfl rfl, .inr fun hconn => ?_⟩
    exact (h.full (.inl hstate) hid hconn).2.frame rfl rfl
  | block t o hsize hdata hstate hc =>
    rw [receivedOver_tail (.inl ⟨_, rfl⟩), receivedOver_start] at haddr ⊢
    obtain ⟨hrun, hid', -, ⟨-, -, hinit, hcnt⟩ | ⟨hevent, -⟩⟩ :=
      hc.carried (r := ⟨r.link, r.parts, true⟩) hid
    · have hnot : ¬ t.Full := by
        rw [RxEvent.Full, hinit]
        rintro (hf | hf) <;> cases hf
      have hzero := (hstart hc).1 hnot
      refine ⟨⟨haddr, fun _ => hid', fun _ => hzero, by rintro (hf | hf) <;> cases hf⟩,
        .inr fun _ => ⟨?_, fun hpos => ?_⟩⟩
      · rw [hrun] at hzero ⊢
        exact via_of_zero hzero
      · rw [show t.mRxReturnCnt = 0 from hcnt] at hpos
        cases hpos
    · cases hevent
  | callBack t o hsize hdata hstate hc =>
    rw [receivedOver_tail (.inr ⟨_, _, rfl⟩), receivedOver_start] at haddr ⊢
    obtain ⟨-, hid', -, ⟨hevent, -⟩ | ⟨-, hf, -⟩⟩ :=
      hc.carried (r := ⟨r.link, r.parts, true⟩) hid
    · cases hevent
    · refine ⟨⟨haddr, fun _ => hid', fun hnot => absurd (.inl rfl) hnot, fun _ hopen hconn => ?_⟩,
        .inr fun hconn => ((hstart hc).2 hf hid hconn).2.frame rfl rfl⟩
      obtain ⟨hlive, hvia, hbytes⟩ := (hstart hc).2 hf hopen hconn
      exact ⟨hlive, hvia, hbytes⟩
  | sync t o hsize hdata hstate hc =>
    rw [Monitor.run_append, receivedOver_start, receivedOver_leave] at haddr ⊢
    obtain ⟨-, hid', -, ⟨hevent, -⟩ | ⟨-, hf, -⟩⟩ :=
      hc.carried (r := ⟨r.link, r.parts, true⟩) hid
    · cases hevent
    · exact ⟨.none haddr (fun _ => hid') rfl rfl,
        .inr fun hconn => ((hstart hc).2 hf hid hconn).2.frame rfl rfl⟩

/-- **Step.** An addressed act keeps the invariant of the reads. One that is not a poll leaves the
bytes received, or links to the stored address carried the new ones. -/
theorem RxCarried.step (h : RxCarried i st r) (ha : SlotState.Allowed i st a)
    (hadd : Addressed i i st a) :
    RxCarried i (st.step i a).1 ((receivedOver i).run r (st.step i a).2) ∧
      (a.isPoll = false → st.sock.connected = true → Received st.sock.addr st.rx r →
        Received st.sock.addr (st.step i a).1.rx ((receivedOver i).run r (st.step i a).2)) := by
  have haddr : AddrFits i (st.step i a).1 ((receivedOver i).run r (st.step i a).2).link := by
    rw [receivedOver, carried_link]
    exact h.addr.step hadd
  by_cases hother : .receive ∉ a.sides ∧ .session ∉ a.sides ∧ a ≠ .fireRx
  · obtain ⟨hside, hsession, hfire⟩ := hother
    obtain ⟨hrx, -⟩ := SlotState.step_rx_frame i st hside hsession hfire
    rw [receivedOver_silent (SlotState.step_sides i st a) hside hsession] at haddr ⊢
    refine ⟨⟨haddr, ?_, ?_, ?_⟩, fun _ _ hgot => ?_⟩ <;> rw [hrx]
    · exact h.polled
    · exact h.waits
    · intro hf hopen hconn
      rw [SlotState.step_id hsession] at hopen
      have hbusy : ¬ Collected st := fun hc => hc.2 hf
      have hwas := hadd.connected hopen hbusy hsession hconn
      rw [(hadd.keeps hopen hwas hsession).2 hbusy]
      obtain ⟨hlive, hvia, hbytes⟩ := h.full hf hopen hwas
      exact ⟨hlive, hvia, hbytes⟩
    · exact hgot.frame rfl rfl
  · cases a with
    | «open» proto =>
      have hrun : (receivedOver i).run r (st.step i (.open proto)).2 = ⟨r.link, r.parts, true⟩ := by
        simp [SlotState.step, receivedOver, carried, Out.receivedPart, Out.recvEnds, link]
      rw [hrun] at haddr ⊢
      exact ⟨.none haddr (fun hdis => h.polled (.inr hdis)) rfl rfl,
        fun _ _ hgot => hgot.frame rfl rfl⟩
    | close =>
      have hrun : ∃ l, (receivedOver i).run r (st.step i .close).2 = ⟨l, r.parts, true⟩ := by
        simp only [SlotState.step, closeSocket]
        split <;> exact ⟨_, by simp [receivedOver, carried, Out.receivedPart, Out.recvEnds]; rfl⟩
      obtain ⟨l, hrun⟩ := hrun
      rw [hrun] at haddr ⊢
      exact ⟨.none haddr (fun hdis => h.polled (.inr hdis)) rfl rfl,
        fun _ _ hgot => hgot.frame rfl rfl⟩
    | recv p n res =>
      rcases he : recvEnter st.sock st.rx p n res with ⟨rx, out, next⟩
      simp only [SlotState.step, he] at haddr ⊢
      obtain ⟨hcarried, hparts⟩ := (recvEnter_cases he).carried h ha haddr
      refine ⟨hcarried, fun _ hconn hgot => ?_⟩
      obtain ⟨hparts, hcnt, -⟩ | hnew := hparts
      · exact hgot.frame hparts hcnt
      · exact hnew hconn
    | recvRet =>
      simp only [SlotState.step] at haddr ⊢
      rw [receivedOver_leave] at haddr ⊢
      exact ⟨.none haddr (fun hdis => h.polled (.inr hdis)) rfl rfl,
        fun _ _ hgot => hgot.frame rfl rfl⟩
    | poll res done g =>
      rcases hr : pollRx st.rx res g with ⟨rx, out, event, g'⟩
      rcases ht : pollTx st.tx done g' with ⟨tx, out', event', g''⟩
      have htx (r : Carried) : (receivedOver i).run r out' = r := by
        rw [receivedOver_silent (pollTx_cases ht).sides (by simp) (by simp),
          (pollTx_cases ht).noLink.run]
      simp only [SlotState.step, hr, ht, Monitor.run_append, htx] at haddr ⊢
      cases pollRx_cases hr with
      | pass => exact ⟨⟨haddr, h.polled, h.waits, h.full⟩, by rintro ⟨⟩⟩
      | poll t _ _ _ hpoll hc =>
        obtain ⟨-, hid', -⟩ := hc.carried (r := r) (h.polled hpoll)
        obtain ⟨hwaits, hfull⟩ := hc.received (h.polled hpoll) h.addr h.waits h.full
        refine ⟨⟨haddr, fun _ => hid', hwaits, fun hf hopen hconn => ?_⟩, by rintro ⟨⟩⟩
        obtain ⟨hlive, hvia, hbytes⟩ := hfull hf hopen hconn
        exact ⟨hlive, hvia, hbytes⟩
    | fireRx =>
      have hrun : (receivedOver i).run r (st.step i .fireRx).2 = r := by
        simp only [SlotState.step, Bg96.fireRx]
        split
        · exact receivedOver_tail (o := []) (.inr ⟨_, _, rfl⟩)
        · rfl
      rw [hrun] at haddr ⊢
      simp only [SlotState.step, Bg96.fireRx] at haddr ⊢
      split
      · rename_i hdocb
        refine ⟨⟨⟨haddr.id, haddr.fits⟩, fun hp => h.polled (.inr (hp.resolve_left (by rintro ⟨⟩))),
          fun hnot => absurd (.inl rfl) hnot, fun _ hopen hconn => ?_⟩,
          fun _ _ hgot => hgot.frame rfl rfl⟩
        obtain ⟨hlive, hvia, hbytes⟩ := h.full (.inr hdocb) hopen hconn
        exact ⟨hlive, hvia, hbytes⟩
      · exact ⟨h, fun _ _ hgot => hgot⟩
    | _ => exact absurd ⟨by simp [Act.sides], by simp [Act.sides], by simp⟩ hother

/-! ## Histories -/

/-- The latest transmission of the slot `i` after the acts `h`. -/
def lastSent (i : Slot) (h : Trace) : Carried := (sentOver i).run (sentOver i).init (outputs i h)

/-- The latest read of the slot `i` after the acts `h`. -/
def lastReceived (i : Slot) (h : Trace) : Carried :=
  (receivedOver i).run (receivedOver i).init (outputs i h)

theorem lastSent_append (new h : Trace) :
    lastSent i (new ++ h) = (sentOver i).run (lastSent i h) (outputs i new) := by
  rw [lastSent, outputs_append, Monitor.run_append]
  rfl

theorem lastReceived_append (new h : Trace) :
    lastReceived i (new ++ h) = (receivedOver i).run (lastReceived i h) (outputs i new) := by
  rw [lastReceived, outputs_append, Monitor.run_append]
  rfl

theorem carried_ctor (raw : Slot → SlotState) (i : Slot) :
    TxCarried i ((ctor raw).slot i) (sentOver i).init ∧
      RxCarried i ((ctor raw).slot i) (receivedOver i).init := by
  have haddr : AddrFits i ((ctor raw).slot i) none := ⟨.inl rfl, nofun⟩
  refine ⟨⟨haddr, fun _ => rfl, fun hbusy => absurd rfl hbusy, fun hne => absurd rfl hne⟩, ?_⟩
  exact .none haddr nofun rfl rfl

/-- **Invariant.** In the states that the interface reaches with addressed acts, the links of the
transfers fit the stored address. -/
theorem carried_along {raw : Slot → SlotState} {s : Interface} (hs : Good (ctor raw).slot s)
    (hadd : Along SlotState.step (Addressed i) (ctor raw).slot s.trace) :
    TxCarried i (s.slot i) (lastSent i s.trace) ∧
      RxCarried i (s.slot i) (lastReceived i s.trace) := by
  obtain ⟨htx, hrx⟩ := carried_ctor raw i
  rw [hs.replay]
  exact ⟨Monitor.run_invariant htx (fun _ _ _ h hP => (h.step hP.1 hP.2).1) hs.honest
      (hs.allowed.and hadd),
    Monitor.run_invariant hrx (fun _ _ _ h hP => (h.step hP.1 hP.2).1) hs.honest
      (hs.allowed.and hadd)⟩

/-- The link that the monitor sees is the modem's: the other sockets do not touch it. -/
theorem lastSent_link {raw : Slot → SlotState} {s : Interface} (hs : Good (ctor raw).slot s) :
    (lastSent i s.trace).link = linkOf i s.trace := by
  obtain ⟨-, -, hh, hal⟩ := hs
  rw [lastSent, sentOver, carried_link]
  generalize s.trace = h at hh
  induction h with
  | nil => rfl
  | cons e h ih =>
    rw [linkOf, ← ih hh.2, outputs]
    split
    · exact Monitor.run_append _ _
    · rename_i hne
      have hid : (after SlotState.step (ctor raw).slot h e.comp).sock.id = -1 ∨
          (after SlotState.step (ctor raw).slot h e.comp).sock.id = e.comp.val :=
        along_invariant (I := fun st : SlotState => st.sock.id = -1 ∨ st.sock.id = e.comp.val)
          (P := fun _ _ _ => True) (.inl rfl) (fun st a h _ => SlotState.step_id_or h a)
          (along_of_forall fun _ _ _ _ => trivial)
      rw [hh.1, link_other hne hid]

end Bg96
