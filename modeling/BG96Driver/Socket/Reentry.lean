import BG96Driver.Socket.Receive

/-!
# A completion is reported once

`txrx_mutex` is recursive: a call-back can call `socket_send` and `socket_recv` on its own socket.
`socket_send` falls through into `case TX_COMPLETE` after its call-back, whatever the call-back did
to the records. If the call-back called `socket_send` on the socket, then the completed transmission
is already returned, and another one may be under way: it is returned twice, or the other one is
reset. `socket_recv` does the same.

* `Sending`: what a user of a socket knows of its transmission, with the monitor `sending`.
* `SendCalm`: no `socket_send` on a socket in a call-back that `socket_send` made on it. Its
  counterpart is `ReadCalm`.
* `completion_once`: calm acts report each completion once, and nothing else.
-/

namespace Bg96

open History Interface

/-! ## The monitor -/

/-- The transmission of a socket, as its user knows it. -/
inductive Transfer where
  | idle
  /-- It is under way. -/
  | busy
  /-- It has completed, and `size` bytes have been sent. -/
  | pending (size : Nat)
  /-- `socket_send` is about to return them. -/
  | returning (size : Nat)
  deriving DecidableEq

namespace Transfer

/-- What an output changes. -/
def next : Transfer → Out → Transfer
  | _, .modemSend .. => .busy
  | _, .txDone size => .pending size
  | .pending size, .txCollect _ => .returning size
  | _, .txCollect _ => .idle
  | .returning _, .ret .socketSend _ => .idle
  | _, .ret .socketOpen _ | _, .ret .socketClose _ => .idle
  | r, _ => r

/-- The outputs that fit: a transmission starts if none is under way or uncollected, and a completed
one is collected with its own size. -/
def Ok : Transfer → Out → Prop
  | .idle, .modemSend .. | .busy, .modemSend .. => True
  | _, .modemSend .. => False
  | .busy, .txDone _ => True
  | _, .txDone _ => False
  | .pending size, .txCollect n => n = size
  | _, .txCollect _ => False
  | .returning size, .ret .socketSend n => n = toInt size
  | _, .ret .socketSend n => n ≤ 0
  | _, _ => True

end Transfer

/-- The monitor of a socket's transmissions. -/
def sending : Monitor Transfer Out where
  init := .idle
  next := Transfer.next
  ok := Transfer.Ok

variable {r : Transfer} {x : Out} {o : List Out}

theorem sending_silent (h : x.side = .receive ∨ x.side = .other) :
    sending.next r x = r ∧ sending.ok r x := by
  cases x with
  | modemSend | txDone | txCollect => simp [Out.side] at h
  | ret f n => cases f <;> first | simp [Out.side] at h; done | cases r <;> exact ⟨rfl, trivial⟩
  | _ => cases r <;> exact ⟨rfl, trivial⟩

/-- What is not about a transmission is accepted and changes nothing. -/
theorem sending_of_sides (h : OutsOf [.receive] o) : sending.Accepts r o ∧ sending.run r o = r := by
  have hx : ∀ x ∈ o, x.side = .receive ∨ x.side = .other :=
    fun x hx => (h x hx).symm.imp_left (by simp)
  exact ⟨Monitor.accepts_of_silent (fun x hm _ => (sending_silent (hx x hm)).1)
    fun x hm => (sending_silent (hx x hm)).2,
    Monitor.run_of_silent fun x hm _ => (sending_silent (hx x hm)).1⟩

theorem sending_session {f : Fn} (hf : f = .socketOpen ∨ f = .socketClose) (n : Int) :
    sending.Accepts r [.ret f n] ∧ sending.run r [.ret f n] = .idle := by
  rcases hf with rfl | rfl <;> cases r <;> exact ⟨⟨trivial, trivial⟩, rfl⟩

/-! ## One socket -/

variable {tx tx' : TxEvent} {i k : Slot} {st : SlotState} {a : Act} {event : Event} {done : Bool}

/-- The transmission of `tx` is the one that its user knows. -/
def SendInv (tx : TxEvent) (r : Transfer) : Prop :=
  match tx.mTxState with
  | .txIdle => r = .idle
  | .txActive => r = .busy
  | .txComplete | .txDocb => r = .pending tx.mTxTotalSent
  | .txStarting => False

/-- The invariant of a socket: while a call-back that `socket_send` made runs, the completed
transmission is still there for `socket_send` to return. -/
structure SendFits (st : SlotState) (r : Transfer) : Prop where
  inv : SendInv st.tx r
  frame : st.inSend = 0 ∨ st.inSend = 1 ∧ st.tx.mTxState = .txComplete

/-- The acts of the slot `i` that its transmissions survive: in a call-back that `socket_send` made,
no `socket_send`, `socket_close` or `socket_open`. -/
def SendCalm (i k : Slot) (st : SlotState) (a : Act) : Prop :=
  k = i → match a with
    | .send data size _ => 1 ≤ size → data ≠ 0 → st.inSend = 0
    | .open _ | .close => st.inSend = 0
    | _ => True

instance (i k : Slot) (st : SlotState) (a : Act) : Decidable (SendCalm i k st a) :=
  match a with
  | .send data size _ => inferInstanceAs (Decidable (_ → 1 ≤ size → data ≠ 0 → st.inSend = 0))
  | .open _ | .close => inferInstanceAs (Decidable (_ → st.inSend = 0))
  | .attach .. | .listen | .connect .. | .connectRet | .recv .. | .sendRet | .recvRet | .recvfrom
  | .setsockopt .. | .getsockopt .. | .poll .. | .fireRx | .fireTx => isTrue fun _ => trivial

/-- `tx_event` on a transmission that starts or is under way. -/
theorem TxCase.accepts (hc : TxCase tx done tx' o event) (hr : r = .idle ∨ r = .busy) :
    sending.Accepts r o ∧
      (event = eventGetmore ∧ sending.run r o = .busy ∧ tx'.mTxState = tx.mTxState ∨
        event = eventComplete ∧ sending.run r o = .pending tx'.mTxTotalSent ∧
          (tx'.mTxState = .txComplete ∨ tx'.mTxState = .txDocb)) := by
  have hsend : ∀ id p n d, sending.Accepts r [.modemSend id p n d] ∧
      sending.run r [.modemSend id p n d] = .busy := by
    rcases hr with rfl | rfl <;> exact fun _ _ _ _ => ⟨⟨trivial, trivial⟩, rfl⟩
  cases hc with
  | idle | more => exact ⟨(hsend ..).1, .inl ⟨rfl, (hsend ..).2, rfl⟩⟩
  | last =>
    refine ⟨⟨(hsend _ _ _ _).1.1, trivial, trivial⟩, .inr ⟨rfl, rfl, ?_⟩⟩
    dsimp only
    split <;> simp

/-- The return of a complete transmission. -/
theorem sendLeave_accepts (h : r = .pending tx.mTxTotalSent) :
    sending.Accepts r (sendLeave tx).2.1 ∧ sending.run r (sendLeave tx).2.1 = .idle := by
  subst h
  exact ⟨⟨rfl, rfl, trivial⟩, rfl⟩

theorem SendInv.pending (h : SendInv tx r)
    (hs : tx.mTxState = .txComplete ∨ tx.mTxState = .txDocb) : r = .pending tx.mTxTotalSent := by
  unfold SendInv at h
  rcases hs with hs | hs <;> rwa [hs] at h

/-- A `socket_send` that changes nothing. -/
theorem SendInv.refuse (h : SendInv tx r) {n : Int} (hn : n ≤ 0) :
    sending.Accepts r [.ret .socketSend n] ∧ sending.run r [.ret .socketSend n] = r := by
  unfold SendInv at h
  split at h
  · subst h; exact ⟨⟨hn, trivial⟩, rfl⟩
  · subst h; exact ⟨⟨hn, trivial⟩, rfl⟩
  · subst h; exact ⟨⟨hn, trivial⟩, rfl⟩
  · subst h; exact ⟨⟨hn, trivial⟩, rfl⟩
  · exact h.elim

/-- `socket_send` up to its call-back. -/
theorem SocketSendCase.accepts {sock : Bg96Socket} {data size : Nat} {next : Next}
    (hc : SocketSendCase sock tx data size done tx' o next) (hinv : SendInv tx r) :
    sending.Accepts r o ∧ SendInv tx' (sending.run r o) ∧
      (next = .callBack → tx'.mTxState = .txComplete) := by
  have hidle : tx.mTxState = .txIdle → r = .idle := by
    intro hs; unfold SendInv at hinv; rwa [hs] at hinv
  cases hc with
  | refuse n hn =>
    obtain ⟨hacc, hrun⟩ := hinv.refuse hn
    exact ⟨hacc, by rw [hrun]; exact hinv, by simp⟩
  | collect _ _ hs =>
    obtain ⟨hacc, hrun⟩ := sendLeave_accepts (hinv.pending (.inl hs))
    exact ⟨hacc, by rw [hrun]; rfl, by simp⟩
  | block t o₁ _ _ hs hc =>
    obtain ⟨hacc, ⟨-, hrun, -⟩ | ⟨he, -⟩⟩ := hc.accepts (.inl (hidle hs))
    · refine ⟨Monitor.accepts_append.mpr ⟨hacc, ?_⟩, ?_, by simp⟩
      · rw [hrun]; exact ⟨show nsapiErrorWouldBlock ≤ 0 by decide, trivial⟩
      · rw [Monitor.run_append, hrun]; rfl
    · cases he
  | callBack t o₁ _ _ hs hc =>
    obtain ⟨hacc, ⟨he, -⟩ | ⟨-, hrun, -⟩⟩ := hc.accepts (.inl (hidle hs))
    · cases he
    · refine ⟨Monitor.accepts_append.mpr ⟨hacc, ?_⟩, ?_, fun _ => rfl⟩
      · rw [hrun]; exact ⟨trivial, trivial⟩
      · rw [Monitor.run_append, hrun]; rfl
  | sync t o₁ _ _ hs hc =>
    obtain ⟨hacc, ⟨he, -⟩ | ⟨-, hrun, -⟩⟩ := hc.accepts (.inl (hidle hs))
    · cases he
    · obtain ⟨hacc', hrun'⟩ := sendLeave_accepts hrun
      refine ⟨Monitor.accepts_append.mpr ⟨hacc, hacc'⟩, ?_, by simp⟩
      rw [Monitor.run_append, hrun']; rfl

/-- **Step.** An act that is calm shows what fits the transmission, and keeps the invariant. -/
theorem SendFits.step (h : SendFits st r) (ha : SlotState.Allowed i st a)
    (hcalm : SendCalm i i st a) :
    sending.Accepts r (st.step i a).2 ∧
      SendFits (st.step i a).1 (sending.run r (st.step i a).2) := by
  by_cases hother : .send ∉ a.sides ∧ .session ∉ a.sides ∧ a ≠ .fireTx
  · obtain ⟨hside, hsession, hfire⟩ := hother
    obtain ⟨htx, hin⟩ := SlotState.step_tx_frame i st hside hsession hfire
    have hreceive : a.sides ⊆ [.receive] := by
      cases a <;> simp [Act.sides] at hside hsession ⊢
    obtain ⟨hacc, hrun⟩ := sending_of_sides (r := r)
      ((SlotState.step_sides i st a).mono hreceive)
    exact ⟨hacc, by rw [hrun]; exact ⟨htx ▸ h.inv, by rw [hin, htx]; exact h.frame⟩⟩
  · have hcalm := hcalm rfl
    cases a with
    | «open» =>
      obtain ⟨hacc, hrun⟩ := sending_session (r := r) (.inl rfl) nsapiErrorOk
      exact ⟨hacc, hrun, .inl hcalm⟩
    | close =>
      simp only [SlotState.step, closeSocket]
      obtain ⟨hacc, hrun⟩ := sending_session (r := r) (.inr rfl) nsapiErrorOk
      obtain ⟨hacc', hrun'⟩ := sending_of_sides (r := r)
        (o := if st.sock.connected then [.modemClose st.sock.id] else [])
        (by split <;> simp [OutsOf, Out.side])
      refine ⟨Monitor.accepts_append.mpr ⟨hacc', by rw [hrun']; exact hacc⟩, ?_, .inl hcalm⟩
      rw [Monitor.run_append, hrun', hrun]; rfl
    | send p n done =>
      rcases he : sendEnter st.sock st.tx p n done with ⟨tx, out, next⟩
      have hc := sendEnter_cases he
      simp only [SlotState.step, he]
      obtain ⟨hacc, hinv, hcb⟩ := hc.accepts h.inv
      refine ⟨hacc, hinv, ?_⟩
      dsimp only
      obtain ⟨rfl, hne⟩ | ⟨hsize, hdata⟩ := hc.args
      · rw [if_neg hne]
        exact h.frame
      · rw [hcalm hsize hdata]
        by_cases hnext : next = .callBack
        · rw [if_pos hnext]
          exact .inr ⟨rfl, hcb hnext⟩
        · exact .inl (if_neg hnext)
    | sendRet =>
      have hin : 0 < st.inSend := ha
      obtain ⟨hin1, hs⟩ := h.frame.resolve_left (by omega)
      obtain ⟨hacc, hrun⟩ := sendLeave_accepts (h.inv.pending (.inl hs))
      exact ⟨hacc, hrun, .inl (by simp [SlotState.step, hin1])⟩
    | poll res done g =>
      rcases hr : pollRx st.rx res g with ⟨rx, out, event, g'⟩
      rcases ht : pollTx st.tx done g' with ⟨tx, out', event', g''⟩
      simp only [SlotState.step, hr, ht]
      obtain ⟨hacc, hrun⟩ := sending_of_sides (r := r) (pollRx_cases hr).sides
      rw [Monitor.accepts_append, Monitor.run_append, hrun]
      cases pollTx_cases ht with
      | pass => exact ⟨⟨hacc, trivial⟩, h.inv, h.frame⟩
      | poll _ _ _ hactive hc =>
        have hbusy : r = .busy := by
          have hinv := h.inv
          unfold SendInv at hinv
          rwa [hactive] at hinv
        have hzero : st.inSend = 0 := h.frame.resolve_right (by rw [hactive]; simp)
        obtain ⟨hacc', ⟨-, hrun', hs⟩ | ⟨-, hrun', hs⟩⟩ := hc.accepts (.inr hbusy)
        · refine ⟨⟨hacc, hacc'⟩, ?_, .inl hzero⟩
          unfold SendInv
          rw [hs, hactive, hrun']
        · refine ⟨⟨hacc, hacc'⟩, ?_, .inl hzero⟩
          unfold SendInv
          rcases hs with hs | hs <;> rw [hs, hrun']
    | fireTx =>
      simp only [SlotState.step, Bg96.fireTx]
      split
      · rename_i hs
        obtain ⟨hacc, hrun⟩ := sending_of_sides (r := r)
          (o := [.callBack st.tx.mTxCallback st.tx.mTxCbData]) (by simp [OutsOf, Out.side])
        refine ⟨hacc, ?_, .inl (h.frame.resolve_right (by rw [hs]; simp))⟩
        rw [hrun]
        exact h.inv.pending (.inr hs)
      · exact ⟨trivial, h⟩
    | _ => exact absurd ⟨by simp [Act.sides], by simp [Act.sides], by simp⟩ hother

/-! ## Exactly once -/

/-- The size of a completed transmission, and the size that `socket_send` returns. -/
def Out.txDoneSize : Out → List Nat
  | .txDone size => [size]
  | _ => []

def Out.txCollectSize : Out → List Nat
  | .txCollect size => [size]
  | _ => []

/-- The count of a completed read, and the count that `socket_recv` returns. -/
def Out.rxDoneCnt : Out → List Nat
  | .rxDone cnt _ => [cnt]
  | _ => []

def Out.rxCollectCnt : Out → List Nat
  | .rxCollect cnt => [cnt]
  | _ => []

/-- The completed transmission that nobody has collected. -/
def TxEvent.uncollected (tx : TxEvent) : List Nat :=
  match tx.mTxState with
  | .txComplete | .txDocb => [tx.mTxTotalSent]
  | _ => []

/-- The completed read that nobody has collected. -/
def RxEvent.uncollected (rx : RxEvent) : List Nat :=
  match rx.mRxState with
  | .dataAvailable | .readDocb => [rx.mRxReturnCnt]
  | _ => []

def Transfer.owed : Transfer → List Nat
  | .pending size => [size]
  | _ => []

def Reading.owed : Reading → List Nat
  | .ready _ cnt => [cnt]
  | _ => []

theorem SendInv.owed (h : SendInv tx r) : r.owed = tx.uncollected := by
  unfold SendInv at h
  unfold TxEvent.uncollected
  split at h
  · rename_i hs; subst h; rw [hs]; rfl
  · rename_i hs; subst h; rw [hs]; rfl
  · rename_i hs; subst h; rw [hs]; rfl
  · rename_i hs; subst h; rw [hs]; rfl
  · exact h.elim

theorem ReadInv.owed {rx : RxEvent} {r : Reading} {b : Prop} (h : ReadInv b rx r) :
    r.owed = rx.uncollected := by
  unfold ReadInv at h
  unfold RxEvent.uncollected
  split at h
  · rename_i hs; subst h; rw [hs]; rfl
  · rename_i hs; obtain ⟨rfl, -⟩ := h; rw [hs]; rfl
  · rename_i hs; obtain ⟨rfl, -⟩ := h; rw [hs]; rfl
  · rename_i hs; obtain ⟨rfl, -⟩ := h; rw [hs]; rfl
  · exact h.elim

/-- One accepted output keeps the balance of completed and collected transmissions. -/
theorem sending_balance (r : Transfer) (x : Out) (hx : x.side ≠ .session) (hok : sending.ok r x) :
    r.owed ++ x.txDoneSize = x.txCollectSize ++ (sending.next r x).owed := by
  cases x with
  | modemSend | txDone => cases r <;> first | rfl | exact hok.elim
  | txCollect n =>
    cases r with
    | pending size => cases hok; rfl
    | _ => exact hok.elim
  | ret f n => cases f <;> cases r <;> first | rfl | exact absurd rfl hx
  | _ => cases r <;> rfl

theorem reading_balance (r : Reading) (x : Out) (hx : x.side ≠ .session)
    (hok : (reading False).ok r x) :
    r.owed ++ x.rxDoneCnt = x.rxCollectCnt ++ ((reading False).next r x).owed := by
  cases x with
  | rxStart => cases hok; rfl
  | rxDone => cases r <;> first | rfl | exact hok.elim
  | rxCollect n =>
    cases r with
    | ready req cnt => cases hok; rfl
    | _ => exact hok.elim
  | ret f n => cases f <;> cases r <;> first | rfl | exact absurd rfl hx
  | _ => cases r <;> rfl

/-- The invariant at every point of a reachable state's past whose acts are calm for the slot. -/
theorem sendFits_reachable {raw : Slot → SlotState} {s : Interface} (hr : Reachable raw s)
    {up h : Trace} (ht : s.trace = up ++ h)
    (hcalm : Along SlotState.step (SendCalm i) (ctor raw).slot h) :
    sending.Accepts .idle (outputs i h) ∧
      SendFits (slotAfter raw h i) (sending.run .idle (outputs i h)) := by
  obtain ⟨-, -, hh, hal⟩ := hr.good
  rw [ht] at hh hal
  exact Monitor.invariant (m := sending) (k := i) (I := SendFits) ⟨rfl, .inl rfl⟩
    (fun st a r hI hP => hI.step hP.1 hP.2) (honest_append.mp hh).2
    ((along_append.mp hal).2.and hcalm)

/-- The socket `i` is not opened or closed by the act. -/
def SameSession (i k : Slot) (_ : SlotState) (a : Act) : Prop := k = i → .session ∉ a.sides

instance (i k : Slot) (st : SlotState) (a : Act) : Decidable (SameSession i k st a) :=
  inferInstanceAs (Decidable (_ → _))

/-- **A completion is reported once.** Take the acts of a reachable state up to any point, calm for
the slot `i`. The monitors accept what the slot has shown, so that `socket_send` and `socket_recv`
return each completion with its own size, when it is there. In any piece `new` of them in which the
socket stays open, the sizes of the completed transmissions are those that `socket_send` has
returned, in order and each once, and at most one that waits to be collected; reads likewise. A
`socket_send` or `socket_recv` that goes on after its call-back finds its own completed transfer. -/
theorem completion_once {raw : Slot → SlotState} {s : Interface} (hr : Reachable raw s)
    {up new h : Trace} (ht : s.trace = up ++ (new ++ h))
    (hsend : Along SlotState.step (SendCalm i) (ctor raw).slot (new ++ h))
    (hread : Along SlotState.step (ReadCalm i) (ctor raw).slot (new ++ h))
    (hsame : Along SlotState.step (SameSession i) (slotAfter raw h) new) :
    let st := slotAfter raw h i
    let st' := slotAfter raw (new ++ h) i
    sending.Accepts .idle (outputs i (new ++ h)) ∧
    (reading False).Accepts .idle (outputs i (new ++ h)) ∧
    st.tx.uncollected ++ (outputs i new).flatMap Out.txDoneSize =
      (outputs i new).flatMap Out.txCollectSize ++ st'.tx.uncollected ∧
    st.rx.uncollected ++ (outputs i new).flatMap Out.rxDoneCnt =
      (outputs i new).flatMap Out.rxCollectCnt ++ st'.rx.uncollected ∧
    (∀ out h₁, new ++ h = ⟨i, .sendRet, out⟩ :: h₁ →
      (slotAfter raw h₁ i).tx.mTxState = .txComplete) ∧
    (∀ out h₁, new ++ h = ⟨i, .recvRet, out⟩ :: h₁ →
      (slotAfter raw h₁ i).rx.mRxState = .dataAvailable) := by
  intro st st'
  have hht : s.trace = (up ++ new) ++ h := by rw [ht, List.append_assoc]
  obtain ⟨hS, hS'⟩ := sendFits_reachable hr ht hsend
  obtain ⟨hR, hR'⟩ := readFits_reachable (b := False) hr ht hread False.elim
  have hSh := (sendFits_reachable hr hht (along_append.mp hsend).2).2
  have hRh := (readFits_reachable (b := False) hr hht (along_append.mp hread).2 False.elim).2
  have hside : ∀ x ∈ outputs i new, x.side ≠ .session := by
    obtain ⟨-, -, hh, -⟩ := hr.good
    rw [ht] at hh
    exact outputs_forall
      (fun a x hP y hy => (SlotState.step_sides i a x).ne (hP rfl) (by decide) y hy)
      (honest_append.mp (honest_append.mp hh).2).1 hsame
  rw [outputs_append] at hS hS' hR hR'
  obtain ⟨hacc, hnew⟩ := Monitor.accepts_append.mp hS
  obtain ⟨hacc', hnew'⟩ := Monitor.accepts_append.mp hR
  rw [Monitor.run_append] at hS' hR'
  refine ⟨by rw [outputs_append]; exact hS, by rw [outputs_append]; exact hR, ?_, ?_, ?_, ?_⟩
  · rw [← hSh.inv.owed, ← hS'.inv.owed]
    exact Monitor.balance sending_balance hside hnew
  · rw [← hRh.inv.owed, ← hR'.inv.owed]
    exact Monitor.balance reading_balance hside hnew'
  · intro out h₁ he
    rw [he] at ht hsend
    have hal := hr.good.allowed
    rw [ht] at hal
    have hin : 0 < (slotAfter raw h₁ i).inSend := (along_append.mp hal).2.1
    have hf := (sendFits_reachable hr (ht.trans (List.append_cons ..)) hsend.2).2.frame
    exact (hf.resolve_left (by omega)).2
  · intro out h₁ he
    rw [he] at ht hread
    have hal := hr.good.allowed
    rw [ht] at hal
    have hin : 0 < (slotAfter raw h₁ i).inRecv := (along_append.mp hal).2.1
    have hf := (readFits_reachable (b := False) hr (ht.trans (List.append_cons ..)) hread.2
      False.elim).2.frame
    exact (hf.resolve_left (by omega)).2

/-- A `socket_send` of 50 bytes that completes at once, on a socket with a call-back that does
`onData`. -/
def sendWithCallBack (onData : Script) : List Label :=
  [.call (.open .nsapiTcp) .done .done, .call (.attach 0 (some 1) 0) .done .done,
    .call (.send 0 100 50 true) .done onData]

/-- The call-back reads. -/
def recvScript : Script := .call (.recv 0 200 10 ⟨0, []⟩) .done .done .done

theorem completion_once_recvScript :
    (outputs 0 (afterSteps (sendWithCallBack recvScript)).trace).flatMap Out.txDoneSize =
      (outputs 0 (afterSteps (sendWithCallBack recvScript)).trace).flatMap Out.txCollectSize := by
  have h := completion_once (i := 0) (afterSteps_reachable (by decide))
    (show (afterSteps (sendWithCallBack recvScript)).trace =
      [] ++ ((afterSteps (sendWithCallBack recvScript)).trace.take 4 ++
        (afterSteps (sendWithCallBack recvScript)).trace.drop 4) from rfl)
    (by decide) (by decide) (by decide)
  exact h.2.2.1

/-- The call-back calls `socket_send`, which returns the completed transmission. -/
def sendScript : Script := .call (.send 0 200 60 true) .done .done .done

/-- The call-back calls `socket_send` again, which starts another transmission. -/
def sendTwiceScript : Script :=
  .call (.send 0 200 60 true) .done .done (.call (.send 0 200 60 false) .done .done .done)

/-- The one completed transmission is returned twice. A transmission that the call-back has started
is reset by the call that goes on after it. -/
theorem completion_once_sendScript :
    (Reachable (fun _ => zeroSlot) (afterSteps (sendWithCallBack sendScript)) ∧
      (outputs 0 (afterSteps (sendWithCallBack sendScript)).trace).flatMap Out.txDoneSize = [50] ∧
      (outputs 0 (afterSteps (sendWithCallBack sendScript)).trace).flatMap Out.txCollectSize =
        [50, 50]) ∧
    Reachable (fun _ => zeroSlot) (afterSteps (sendWithCallBack sendTwiceScript)) ∧
      (∃ out h₁, (afterSteps (sendWithCallBack sendTwiceScript)).trace = ⟨0, .sendRet, out⟩ :: h₁ ∧
        (slotAfter (fun _ => zeroSlot) h₁ 0).tx.mTxState = .txActive) ∧
      ((afterSteps (sendWithCallBack sendTwiceScript)).gSocTx 0).mTxState = .txIdle :=
  ⟨⟨afterSteps_reachable (by decide), by decide, by decide⟩, afterSteps_reachable (by decide),
    ⟨_, _, rfl, by decide⟩, by decide⟩

end Bg96
