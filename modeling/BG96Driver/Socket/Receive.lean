import BG96Driver.Lib.Monitor
import BG96Driver.Socket.Replay

/-!
# Received data is stored for an outstanding read, and survives until it is collected

`Reading` is what a user of a socket knows of its read: a read starts, waits, is completed with some
count, and is collected once. The monitor `reading` says which outputs of the socket fit: bytes are
stored only in the buffer of a read that is outstanding, only such a read completes, and only a
completed read is collected, with its own count. `reading True` also asks for the bounds that
follow if `BG96::recv` keeps to its third argument (`Bounded`).

`g_eq_event` polls a slot if a read is active *or* if `m_rx_disTO` is set, so a socket in listening
mode is polled in every state. `ReadCalm` is what has to hold of the acts for the monitor to accept
them all:

* such a poll, outside of an active read, gets nothing;
* no call-back that `socket_recv` made receives from the socket, closes it or opens it again:
  `socket_recv` goes on after its call-back as if the read were still there
  (`BG96Driver/Socket/Reentry.lean`).
-/

namespace Bg96

open History Interface

/-! ## The monitor -/

/-- The read of a socket, as its user knows it. -/
inductive Reading where
  | idle
  /-- `socket_recv` has started a read of at most `req` bytes to `data`. -/
  | starting (data req : Nat)
  /-- `socket_recv` has returned `NSAPI_ERROR_WOULD_BLOCK` for it. -/
  | waiting (data req : Nat)
  /-- It has completed with `cnt` bytes. -/
  | ready (req cnt : Nat)
  /-- `socket_recv` is about to return them. -/
  | returning (req cnt : Nat)
  deriving DecidableEq

namespace Reading

/-- What an output changes. -/
def next : Reading → Out → Reading
  | _, .rxStart data req => .starting data req
  | .starting data req, .ret .socketRecv _ => .waiting data req
  | .starting _ req, .rxDone cnt _ | .waiting _ req, .rxDone cnt _ => .ready req cnt
  | .ready req cnt, .rxCollect _ => .returning req cnt
  | _, .rxCollect _ | .returning .., .ret .socketRecv _ => .idle
  | _, .ret .socketOpen _ | _, .ret .socketClose _ => .idle
  | r, _ => r

/-- The outputs that fit. With `bounded`, no more bytes are stored or returned than were asked. -/
def Ok (bounded : Prop) : Reading → Out → Prop
  | r, .rxStart .. => r = .idle
  | .starting data req, .store p bytes | .waiting data req, .store p bytes =>
    p = data ∧ (bounded → bytes.length ≤ req)
  | _, .store _ bytes => bytes = []
  | .starting .., .rxDone .. | .waiting .., .rxDone .. => True
  | _, .rxDone .. => False
  | .ready _ cnt, .rxCollect n => n = cnt
  | _, .rxCollect _ => False
  | .returning req cnt, .ret .socketRecv n => n = toInt cnt ∧ (bounded → 0 ≤ n → n ≤ req)
  | _, .ret .socketRecv n => n ≤ 0
  | _, _ => True

end Reading

/-- The monitor of a socket's reads. -/
def reading (bounded : Prop) : Monitor Reading Out where
  init := .idle
  next := Reading.next
  ok := Reading.Ok bounded

variable {b : Prop} {r : Reading} {x : Out} {o : List Out}

theorem reading_silent (h : x.side = .send ∨ x.side = .other) :
    (reading b).next r x = r ∧ (reading b).ok r x := by
  cases x with
  | store | rxStart | rxDone | rxCollect | modemRecv => simp [Out.side] at h
  | ret f n => cases f <;> first | simp [Out.side] at h; done | cases r <;> exact ⟨rfl, trivial⟩
  | _ => cases r <;> exact ⟨rfl, trivial⟩

/-- What is not about a read is accepted and changes nothing. -/
theorem reading_of_sides (h : OutsOf [.send] o) :
    (reading b).Accepts r o ∧ (reading b).run r o = r := by
  have hx : ∀ x ∈ o, x.side = .send ∨ x.side = .other :=
    fun x hx => (h x hx).symm.imp_left (by simp)
  exact ⟨Monitor.accepts_of_silent (fun x hm _ => (reading_silent (hx x hm)).1)
    fun x hm => (reading_silent (hx x hm)).2,
    Monitor.run_of_silent fun x hm _ => (reading_silent (hx x hm)).1⟩

/-! ## `rx_event` -/

variable {rx rx' : RxEvent} {res : RecvResult} {event : Event}

/-- The `BG96::recv` of at most `req` bytes keeps to its bound. -/
def RecvResult.Within (res : RecvResult) (req : Nat) : Prop := res.data.length ≤ req ∧ res.cnt ≤ req

instance (res : RecvResult) (req : Nat) : Decidable (res.Within req) :=
  inferInstanceAs (Decidable (_ ∧ _))

/-- The read `r` is outstanding. -/
def Reading.Outstanding (r : Reading) (rx : RxEvent) : Prop :=
  r = .starting rx.mRxDptr rx.mRxReqSize ∨ r = .waiting rx.mRxDptr rx.mRxReqSize

/-- The read of `rx` is complete. -/
structure RxFull (b : Prop) (rx : RxEvent) (r : Reading) : Prop where
  ready : r = .ready rx.mRxReqSize rx.mRxReturnCnt
  le : b → rx.mRxReturnCnt ≤ rx.mRxReqSize

/-- The command of `rx_event` and the bytes that it stores. -/
theorem Reading.Outstanding.poll (hr : r.Outstanding rx) (hb : b → res.Within rx.mRxReqSize)
    (id ret : Int) : (reading b).Accepts r
        [.modemRecv id rx.mRxDptr rx.mRxReqSize ret, .store rx.mRxDptr res.data] ∧
      (reading b).run r
        [.modemRecv id rx.mRxDptr rx.mRxReqSize ret, .store rx.mRxDptr res.data] = r := by
  rcases hr with rfl | rfl <;> exact ⟨⟨trivial, ⟨rfl, fun h => (hb h).1⟩, trivial⟩, rfl⟩

/-- The completion of an outstanding read. -/
theorem Reading.Outstanding.done (hr : r.Outstanding rx) (cnt : Nat) (timeout : Bool) :
    (reading b).Accepts r [.rxDone cnt timeout] ∧
      (reading b).run r [.rxDone cnt timeout] = .ready rx.mRxReqSize cnt := by
  rcases hr with rfl | rfl <;> exact ⟨⟨trivial, trivial⟩, rfl⟩

/-- **`rx_event`** on an outstanding read. It asks for another event and the read is as before, or
it completes the read. -/
theorem RxCase.accepts (hc : RxCase rx res rx' o event) (hr : r.Outstanding rx)
    (hcnt : rx.mRxReturnCnt = 0) (hb : b → res.Within rx.mRxReqSize) :
    (reading b).Accepts r o ∧
      (event = eventGetmore ∧ (reading b).run r o = r ∧ rx'.mRxState = rx.mRxState ∧
          rx'.mRxDptr = rx.mRxDptr ∧ rx'.mRxReqSize = rx.mRxReqSize ∧ rx'.mRxReturnCnt = 0 ∨
        event = eventComplete ∧ RxFull b rx' ((reading b).run r o) ∧
          (rx'.mRxState = .dataAvailable ∨ rx'.mRxState = .readDocb)) := by
  have hpoll := hr.poll hb rx.mRxSocketID res.cnt
  cases hc with
  | error => exact ⟨hpoll.1, .inl ⟨rfl, hpoll.2, rfl, rfl, rfl, hcnt⟩⟩
  | idle => exact ⟨hpoll.1, .inl ⟨rfl, hpoll.2, rfl, rfl, rfl, hcnt⟩⟩
  | data hpos =>
    obtain ⟨hacc, hrun⟩ := hr.done (b := b) (u32Add rx.mRxReturnCnt res.cnt.toNat) false
    refine ⟨Monitor.accepts_append.mpr ⟨hpoll.1, hpoll.2 ▸ hacc⟩, .inr ⟨rfl, ⟨?_, fun h => ?_⟩,
      completed_state _⟩⟩
    · exact (Monitor.run_append [_, _] [_]).trans (by rw [hpoll.2]; exact hrun)
    · have hle : (0 + res.cnt.toNat) % 2 ^ 32 ≤ 0 + res.cnt.toNat := Nat.mod_le ..
      have := (hb h).2
      simp only [u32Add, hcnt]
      omega
  | timeout =>
    obtain ⟨hacc, hrun⟩ := hr.done (b := b) 0 true
    refine ⟨Monitor.accepts_append.mpr ⟨hpoll.1, hpoll.2 ▸ hacc⟩,
      .inr ⟨rfl, ⟨?_, fun _ => Nat.zero_le _⟩,
      completed_state _⟩⟩
    exact (Monitor.run_append [_, _] [_]).trans (by rw [hpoll.2]; exact hrun)

/-! ## One socket -/

variable {i k : Slot} {st : SlotState} {a : Act}

/-- The read of `rx` is the one that its user knows. -/
def ReadInv (b : Prop) (rx : RxEvent) (r : Reading) : Prop :=
  match rx.mRxState with
  | .readStart => r = .idle
  | .readActive => r = .waiting rx.mRxDptr rx.mRxReqSize ∧ rx.mRxReturnCnt = 0
  | .readDocb | .dataAvailable => RxFull b rx r
  | .readInit => False

/-- The invariant of a socket: while a call-back that `socket_recv` made runs, the completed read is
still there for `socket_recv` to return. -/
structure ReadFits (b : Prop) (st : SlotState) (r : Reading) : Prop where
  inv : ReadInv b st.rx r
  frame : st.inRecv = 0 ∨ st.inRecv = 1 ∧ st.rx.mRxState = .dataAvailable

/-- `BG96::recv` keeps to its third argument in the act. -/
def Bounded (i k : Slot) (st : SlotState) (a : Act) : Prop :=
  k = i → match a with
    | .recv _ size res => res.Within (min size bg96BuffSize)
    | .poll res _ _ => res.Within st.rx.mRxReqSize
    | _ => True

/-- The acts of the slot `i` that its reads survive: in a call-back that `socket_recv` made, no
`socket_recv`, `socket_close` or `socket_open`; and no bytes and no count for a slot that is polled
only because its `m_rx_disTO` is set. -/
def ReadCalm (i k : Slot) (st : SlotState) (a : Act) : Prop :=
  k = i → match a with
    | .recv data size _ => 1 ≤ size → data ≠ 0 → st.inRecv = 0
    | .open _ | .close => st.inRecv = 0
    | .poll res _ _ => st.rx.mRxDisTO = true → st.rx.mRxState ≠ .readActive →
        res.cnt ≤ 0 ∧ res.data = []
    | _ => True

instance (i k : Slot) (st : SlotState) (a : Act) : Decidable (Bounded i k st a) :=
  match a with
  | .recv _ size res => inferInstanceAs (Decidable (_ → res.Within (min size bg96BuffSize)))
  | .poll res _ _ => inferInstanceAs (Decidable (_ → res.Within st.rx.mRxReqSize))
  | .open _ | .close | .attach .. | .listen | .connect .. | .connectRet | .send .. | .sendRet
  | .recvRet | .recvfrom | .setsockopt .. | .getsockopt .. | .fireRx | .fireTx =>
    isTrue fun _ => trivial

instance (i k : Slot) (st : SlotState) (a : Act) : Decidable (ReadCalm i k st a) :=
  match a with
  | .recv data size _ => inferInstanceAs (Decidable (_ → 1 ≤ size → data ≠ 0 → st.inRecv = 0))
  | .open _ | .close => inferInstanceAs (Decidable (_ → st.inRecv = 0))
  | .poll res _ _ => inferInstanceAs (Decidable (_ → st.rx.mRxDisTO = true →
      st.rx.mRxState ≠ .readActive → res.cnt ≤ 0 ∧ res.data = []))
  | .attach .. | .listen | .connect .. | .connectRet | .send .. | .sendRet | .recvRet | .recvfrom
  | .setsockopt .. | .getsockopt .. | .fireRx | .fireTx => isTrue fun _ => trivial

/-- The return of a complete read. -/
theorem RxFull.leave (h : RxFull b rx r) :
    (reading b).Accepts r (recvLeave rx).2.1 ∧ (reading b).run r (recvLeave rx).2.1 = .idle := by
  obtain ⟨rfl, hle⟩ := h
  refine ⟨⟨rfl, ⟨rfl, fun hb hn => ?_⟩, trivial⟩, rfl⟩
  have := hle hb
  unfold toInt at *
  split at * <;> omega

/-- A `socket_recv` that changes nothing. -/
theorem ReadInv.refuse (h : ReadInv b rx r) {n : Int} (hn : n ≤ 0) :
    (reading b).Accepts r [.ret .socketRecv n] ∧ (reading b).run r [.ret .socketRecv n] = r := by
  unfold ReadInv at h
  split at h
  · subst h; exact ⟨⟨hn, trivial⟩, rfl⟩
  · obtain ⟨rfl, -⟩ := h; exact ⟨⟨hn, trivial⟩, rfl⟩
  · obtain ⟨rfl, -⟩ := h; exact ⟨⟨hn, trivial⟩, rfl⟩
  · obtain ⟨rfl, -⟩ := h; exact ⟨⟨hn, trivial⟩, rfl⟩
  · exact h.elim

theorem RxFull.inv (h : RxFull b rx r)
    (hs : rx.mRxState = .dataAvailable ∨ rx.mRxState = .readDocb) :
    ReadInv b rx r := by
  unfold ReadInv
  rcases hs with hs | hs <;> rw [hs] <;> exact h

/-- The invariant does not depend on the timer. -/
theorem ReadInv.timer (h : ReadInv b rx r) (t : Int) : ReadInv b { rx with mRxTimer := t } r := by
  unfold ReadInv at h ⊢
  dsimp only
  split <;> rename_i hs <;> rw [hs] at h
  · exact h
  · exact h
  · exact ⟨h.ready, h.le⟩
  · exact ⟨h.ready, h.le⟩
  · exact h

/-- The first `rx_event` of a read, which `socket_recv` makes. -/
theorem RxCase.start {sock : Bg96Socket} {data size : Nat}
    (hc : RxCase (recvStart sock data size) res rx' o event)
    (hb : b → res.Within (min size bg96BuffSize)) :
    (reading b).Accepts .idle (.rxStart data (min size bg96BuffSize) :: o) ∧
      (event = eventGetmore ∧ rx'.mRxReturnCnt = 0 ∧
          (reading b).run .idle (.rxStart data (min size bg96BuffSize) :: o) =
            .starting rx'.mRxDptr rx'.mRxReqSize ∨
        event = eventComplete ∧ RxFull b rx'
          ((reading b).run .idle (.rxStart data (min size bg96BuffSize) :: o))) := by
  have hreq : (recvStart sock data size).mRxReqSize = min size bg96BuffSize := ite_gt_eq_min ..
  have hout : (Reading.starting data (min size bg96BuffSize)).Outstanding
      (recvStart sock data size) := .inl (by rw [hreq]; rfl)
  obtain ⟨hacc, ⟨rfl, hrun, -, hd, hq, hcnt⟩ | ⟨rfl, hfull, -⟩⟩ :=
    hc.accepts hout rfl (b := b) (by rw [hreq]; exact hb)
  · refine ⟨⟨rfl, hacc⟩, .inl ⟨rfl, hcnt, hrun.trans ?_⟩⟩
    rw [hd, hq, hreq]; rfl
  · exact ⟨⟨rfl, hacc⟩, .inr ⟨rfl, hfull⟩⟩

/-- `socket_recv` up to its call-back. -/
theorem SocketRecvCase.accepts {sock : Bg96Socket} {data size : Nat} {next : Next}
    (hc : SocketRecvCase sock rx data size res rx' o next) (hinv : ReadInv b rx r)
    (hb : b → res.Within (min size bg96BuffSize)) :
    (reading b).Accepts r o ∧ ReadInv b rx' ((reading b).run r o) ∧
      (next = .callBack → rx'.mRxState = .dataAvailable) := by
  have hidle : rx.mRxState = .readStart → r = .idle := by
    intro hs; unfold ReadInv at hinv; rwa [hs] at hinv
  cases hc with
  | refuse n hn =>
    obtain ⟨hacc, hrun⟩ := hinv.refuse hn
    exact ⟨hacc, by rw [hrun]; exact hinv, by simp⟩
  | collect _ _ hs =>
    unfold ReadInv at hinv
    rw [hs] at hinv
    obtain ⟨hacc, hrun⟩ := RxFull.leave hinv
    exact ⟨hacc, by rw [hrun]; rfl, by simp⟩
  | block rx₁ o₁ _ _ hs hc =>
    obtain rfl := hidle hs
    obtain ⟨hacc, ⟨-, hcnt, hrun⟩ | ⟨he, -⟩⟩ := hc.start (b := b) hb
    · refine ⟨Monitor.accepts_append.mpr ⟨hacc, ?_⟩, ⟨?_, hcnt⟩, by simp⟩
      · rw [hrun]; exact ⟨show nsapiErrorWouldBlock ≤ 0 by decide, trivial⟩
      · rw [Monitor.run_append, hrun]; rfl
    · cases he
  | callBack rx₁ o₁ _ _ hs hc =>
    obtain rfl := hidle hs
    obtain ⟨hacc, ⟨he, -⟩ | ⟨-, hfull⟩⟩ := hc.start (b := b) hb
    · cases he
    · refine ⟨Monitor.accepts_append.mpr ⟨hacc, ?_⟩, ?_, fun _ => rfl⟩
      · rw [hfull.ready]; exact ⟨trivial, trivial⟩
      · rw [Monitor.run_append, hfull.ready]; exact ⟨rfl, hfull.le⟩
  | sync rx₁ o₁ _ _ hs hc =>
    obtain rfl := hidle hs
    obtain ⟨hacc, ⟨he, -⟩ | ⟨-, hfull⟩⟩ := hc.start (b := b) hb
    · cases he
    · obtain ⟨hacc', hrun⟩ := hfull.leave
      refine ⟨Monitor.accepts_append.mpr ⟨hacc, hacc'⟩, ?_, by simp⟩
      rw [Monitor.run_append, hrun]; rfl

theorem reading_session {f : Fn} (hf : f = .socketOpen ∨ f = .socketClose) (n : Int) :
    (reading b).Accepts r [.ret f n] ∧ (reading b).run r [.ret f n] = .idle := by
  rcases hf with rfl | rfl <;> cases r <;> exact ⟨⟨trivial, trivial⟩, rfl⟩

/-- A poll that gets nothing, outside of an active read. -/
theorem RxCase.quiet (hc : RxCase rx res rx' o event) (hinv : ReadInv b rx r)
    (hstate : rx.mRxState ≠ .readActive) (hdis : rx.mRxDisTO = true) (hcnt : res.cnt ≤ 0)
    (hdata : res.data = []) :
    (reading b).Accepts r o ∧ (reading b).run r o = r ∧ ∃ t, rx' = { rx with mRxTimer := t } := by
  have hout : (reading b).Accepts r [.modemRecv rx.mRxSocketID rx.mRxDptr rx.mRxReqSize res.cnt,
        .store rx.mRxDptr res.data] ∧
      (reading b).run r [.modemRecv rx.mRxSocketID rx.mRxDptr rx.mRxReqSize res.cnt,
        .store rx.mRxDptr res.data] = r := by
    unfold ReadInv at hinv
    rw [hdata]
    split at hinv
    · subst hinv; exact ⟨⟨trivial, rfl, trivial⟩, rfl⟩
    · contradiction
    · obtain ⟨rfl, -⟩ := hinv; exact ⟨⟨trivial, rfl, trivial⟩, rfl⟩
    · obtain ⟨rfl, -⟩ := hinv; exact ⟨⟨trivial, rfl, trivial⟩, rfl⟩
    · exact hinv.elim
  cases hc with
  | error | idle => exact ⟨hout.1, hout.2, _, rfl⟩
  | data hpos => omega
  | timeout _ _ _ hd => rw [hdis] at hd; cases hd

/-- A turn of `g_eq_event`'s first loop. -/
theorem PollRxCase.accepts {g g' : Bool} (hc : PollRxCase rx res g rx' o event g')
    (hinv : ReadInv b rx r)
    (hcalm : rx.mRxDisTO = true → rx.mRxState ≠ .readActive → res.cnt ≤ 0 ∧ res.data = [])
    (hb : b → res.Within rx.mRxReqSize) :
    (reading b).Accepts r o ∧ ReadInv b rx' ((reading b).run r o) ∧
      (rx.mRxState = .dataAvailable → rx'.mRxState = .dataAvailable) := by
  cases hc with
  | pass => exact ⟨trivial, hinv, id⟩
  | poll rx₁ _ _ _ hpoll hc =>
    by_cases hs : rx.mRxState = .readActive
    · have hw : r = .waiting rx.mRxDptr rx.mRxReqSize ∧ rx.mRxReturnCnt = 0 := by
        unfold ReadInv at hinv; rwa [hs] at hinv
      obtain ⟨hacc, ⟨-, hrun, hst, hd, hq, hcnt⟩ | ⟨-, hfull, hst⟩⟩ :=
        hc.accepts (.inr hw.1) hw.2 hb
      · refine ⟨hacc, ReadInv.timer ?_ _, by rw [hs]; simp⟩
        rw [hrun]
        unfold ReadInv
        rw [hst, hs, hd, hq]
        exact ⟨hw.1, hcnt⟩
      · exact ⟨hacc, (hfull.inv hst).timer _, by rw [hs]; simp⟩
    · obtain ⟨hcnt, hdata⟩ := hcalm (hpoll.resolve_left hs) hs
      obtain ⟨hacc, hrun, t, rfl⟩ := hc.quiet hinv hs (hpoll.resolve_left hs) hcnt hdata
      exact ⟨hacc, by rw [hrun]; exact (hinv.timer t).timer _, id⟩

/-- **Step.** An act that is calm shows what fits the read, and keeps the invariant. -/
theorem ReadFits.step (h : ReadFits b st r) (ha : SlotState.Allowed i st a)
    (hcalm : ReadCalm i i st a) (hb : b → Bounded i i st a) :
    (reading b).Accepts r (st.step i a).2 ∧
      ReadFits b (st.step i a).1 ((reading b).run r (st.step i a).2) := by
  by_cases hother : .receive ∉ a.sides ∧ .session ∉ a.sides ∧ a ≠ .fireRx
  · obtain ⟨hside, hsession, hfire⟩ := hother
    obtain ⟨hrx, hin⟩ := SlotState.step_rx_frame i st hside hsession hfire
    have hsend : a.sides ⊆ [.send] := by
      cases a <;> simp [Act.sides] at hside hsession ⊢
    obtain ⟨hacc, hrun⟩ := reading_of_sides (b := b) (r := r)
      ((SlotState.step_sides i st a).mono hsend)
    exact ⟨hacc, by rw [hrun]; exact ⟨hrx ▸ h.inv, by rw [hin, hrx]; exact h.frame⟩⟩
  · have hcalm := hcalm rfl
    cases a with
    | «open» =>
      obtain ⟨hacc, hrun⟩ := reading_session (b := b) (r := r) (.inl rfl) nsapiErrorOk
      exact ⟨hacc, hrun, .inl hcalm⟩
    | close =>
      simp only [SlotState.step, closeSocket]
      obtain ⟨hacc, hrun⟩ := reading_session (b := b) (r := r) (.inr rfl) nsapiErrorOk
      obtain ⟨hacc', hrun'⟩ := reading_of_sides (b := b) (r := r)
        (o := if st.sock.connected then [.modemClose st.sock.id] else [])
        (by split <;> simp [OutsOf, Out.side])
      refine ⟨Monitor.accepts_append.mpr ⟨hacc', by rw [hrun']; exact hacc⟩, ?_, .inl hcalm⟩
      rw [Monitor.run_append, hrun', hrun]; rfl
    | recv p n res =>
      rcases he : recvEnter st.sock st.rx p n res with ⟨rx, out, next⟩
      have hc := recvEnter_cases he
      simp only [SlotState.step, he]
      obtain ⟨hacc, hinv, hcb⟩ := hc.accepts h.inv fun hb' => hb hb' rfl
      refine ⟨hacc, hinv, ?_⟩
      dsimp only
      obtain ⟨rfl, hne⟩ | ⟨hsize, hdata⟩ := hc.args
      · rw [if_neg hne]
        exact h.frame
      · rw [hcalm hsize hdata]
        by_cases hnext : next = .callBack
        · rw [if_pos hnext]
          exact .inr ⟨rfl, hcb hnext⟩
        · exact .inl (if_neg hnext)
    | recvRet =>
      have hin : 0 < st.inRecv := ha
      obtain ⟨hin1, hs⟩ := h.frame.resolve_left (by omega)
      have hinv := h.inv
      unfold ReadInv at hinv
      rw [hs] at hinv
      obtain ⟨hacc, hrun⟩ := RxFull.leave hinv
      exact ⟨hacc, hrun, .inl (by simp [SlotState.step, hin1])⟩
    | poll res done g =>
      rcases hr : pollRx st.rx res g with ⟨rx, out, event, g'⟩
      rcases ht : pollTx st.tx done g' with ⟨tx, out', event', g''⟩
      simp only [SlotState.step, hr, ht]
      obtain ⟨hacc, hinv, hst⟩ := (pollRx_cases hr).accepts h.inv hcalm fun hb' => hb hb' rfl
      obtain ⟨hacc', hrun'⟩ := reading_of_sides (b := b) (r := (reading b).run r out)
        (pollTx_cases ht).sides
      refine ⟨Monitor.accepts_append.mpr ⟨hacc, hacc'⟩, ?_, h.frame.imp_right fun hf => ?_⟩
      · rw [Monitor.run_append, hrun']; exact hinv
      · exact ⟨hf.1, hst hf.2⟩
    | fireRx =>
      simp only [SlotState.step, Bg96.fireRx]
      split
      · rename_i hs
        have hinv := h.inv
        unfold ReadInv at hinv
        rw [hs] at hinv
        obtain ⟨hacc, hrun⟩ := reading_of_sides (b := b) (r := r)
          (o := [.callBack st.rx.mRxCallback st.rx.mRxCbData]) (by simp [OutsOf, Out.side])
        refine ⟨hacc, ?_, .inl (h.frame.resolve_right (by rw [hs]; simp))⟩
        rw [hrun]
        exact ⟨hinv.ready, hinv.le⟩
      · exact ⟨trivial, h⟩
    | _ => exact absurd ⟨by simp [Act.sides], by simp [Act.sides], by simp⟩ hother

/-- The invariant at every point of a reachable state's past whose acts are calm for the slot. -/
theorem readFits_reachable {raw : Slot → SlotState} {s : Interface} (hr : Reachable raw s)
    {up h : Trace} (ht : s.trace = up ++ h)
    (hcalm : Along SlotState.step (ReadCalm i) (ctor raw).slot h)
    (hb : b → Along SlotState.step (Bounded i) (ctor raw).slot h) :
    (reading b).Accepts .idle (outputs i h) ∧
      ReadFits b (slotAfter raw h i) ((reading b).run .idle (outputs i h)) := by
  obtain ⟨-, -, hh, hal⟩ := hr.good
  rw [ht] at hh hal
  have hbound : Along SlotState.step (fun k st a => b → Bounded i k st a) (ctor raw).slot h := by
    by_cases hb' : b
    · exact (hb hb').mono fun _ _ _ hB _ => hB
    · exact along_of_forall fun _ _ _ _ hB => absurd hB hb'
  refine Monitor.invariant (m := reading b) (k := i) (I := ReadFits b)
    ⟨rfl, .inl rfl⟩ (fun st a r hI hP => hI.step hP.1.1 hP.1.2 hP.2)
    (honest_append.mp hh).2 (((along_append.mp hal).2.and hcalm).and hbound)

theorem ReadInv.iff (h : ReadInv b rx r) :
    (rx.mRxState = .readActive ↔ r = .waiting rx.mRxDptr rx.mRxReqSize) ∧
      ∀ req cnt, r = .ready req cnt ↔ (rx.mRxState = .dataAvailable ∨ rx.mRxState = .readDocb) ∧
        rx.mRxReqSize = req ∧ rx.mRxReturnCnt = cnt := by
  unfold ReadInv at h
  split at h
  · rename_i hs; subst h; simp [hs]
  · rename_i hs; obtain ⟨rfl, -⟩ := h; simp [hs]
  · rename_i hs; obtain ⟨rfl, -⟩ := h; simp [hs]
  · rename_i hs; obtain ⟨rfl, -⟩ := h; simp [hs]
  · exact h.elim

/-- A poll stores only what `BG96::recv` gave, for a slot that is polled. -/
theorem step_poll_store {done g : Bool} {p : Nat} {bytes : List UInt8}
    (hm : .store p bytes ∈ (st.step i (.poll res done g)).2) :
    (st.rx.mRxState = .readActive ∨ st.rx.mRxDisTO = true) ∧ p = st.rx.mRxDptr ∧
      bytes = res.data := by
  rcases hr : pollRx st.rx res g with ⟨rx, out, event, g'⟩
  rcases ht : pollTx st.tx done g' with ⟨tx, out', event', g''⟩
  simp only [SlotState.step, hr, ht] at hm
  rcases List.mem_append.mp hm with hm | hm
  · cases pollRx_cases hr with
    | pass => cases hm
    | poll _ _ _ _ hpoll he =>
      refine ⟨hpoll, ?_⟩
      cases he <;> simpa using hm
  · have := (pollTx_cases ht).sides _ hm
    simp [Out.side] at this

/-- **Received data belongs to an outstanding read.** Take the acts of a reachable state up to any
point, calm for the slot `i`, where `BG96::recv` keeps to its bound. What the slot has shown is
accepted by the monitor: in particular every count that `socket_recv` returned is at most the size
asked, and it is the count with which the read completed. A turn of `g_eq_event` that stores bytes
finds a read for which `socket_recv` has returned `NSAPI_ERROR_WOULD_BLOCK`; and as long as a
completed read is not collected, its count stands in `m_rx_return_cnt`. -/
theorem received_data {raw : Slot → SlotState} {s : Interface} (hr : Reachable raw s)
    {up h : Trace} (ht : s.trace = up ++ h)
    (hcalm : Along SlotState.step (ReadCalm i) (ctor raw).slot h)
    (hb : Along SlotState.step (Bounded i) (ctor raw).slot h) :
    let rx := (slotAfter raw h i).rx
    let r := (reading True).run .idle (outputs i h)
    (reading True).Accepts .idle (outputs i h) ∧
    (∀ res done g out h₁ p bytes, h = ⟨i, .poll res done g, out⟩ :: h₁ → .store p bytes ∈ out →
      bytes ≠ [] → ∃ req, (reading True).run .idle (outputs i h₁) = .waiting p req) ∧
    (rx.mRxState = .readActive ↔ r = .waiting rx.mRxDptr rx.mRxReqSize) ∧
    (∀ req cnt, r = .ready req cnt ↔ (rx.mRxState = .dataAvailable ∨ rx.mRxState = .readDocb) ∧
      rx.mRxReqSize = req ∧ rx.mRxReturnCnt = cnt) := by
  intro rx r
  obtain ⟨hacc, hfits⟩ := readFits_reachable hr ht hcalm fun _ => hb
  refine ⟨hacc, ?_, hfits.inv.iff⟩
  rintro res done g out h₁ p bytes rfl hmem hne
  obtain ⟨-, -, hh, -⟩ := hr.good
  rw [ht] at hh
  have hout : out = _ := (honest_append.mp hh).2.1
  obtain ⟨hpoll, rfl, rfl⟩ := step_poll_store (hout ▸ hmem)
  have hfits := (readFits_reachable (b := True) hr (ht.trans (List.append_cons ..)) hcalm.2
    fun _ => hb.2).2
  by_cases hs : (slotAfter raw h₁ i).rx.mRxState = .readActive
  · exact ⟨_, hfits.inv.iff.1.mp hs⟩
  · exact absurd (hcalm.1 rfl (hpoll.resolve_left hs) hs).2 hne

/-- The firing in which the modem has the bytes `bytes` for each slot. -/
def dataTick (bytes : List UInt8) : TickEnv where
  rx _ := ⟨bytes.length, bytes⟩
  tx _ := true
  onRx _ := .done
  onTx _ := .done

/-- A read of a socket in listening mode, which the first firing completes. -/
def listenRead : List Label :=
  [.call (.open .nsapiTcp) .done .done, .call (.listen 0) .done .done,
    .call (.recv 0 100 10 ⟨0, []⟩) .done .done, .tick (dataTick [1, 2, 3])]

theorem received_data_listenRead :
    (reading True).run .idle (outputs 0 (afterSteps listenRead).trace) = .ready 10 3 ∧
      ((afterSteps listenRead).gSocRx 0).mRxReturnCnt = 3 := by
  have hready :
      (reading True).run .idle (outputs 0 (afterSteps listenRead).trace) = .ready 10 3 := by
    decide
  have h := received_data (i := 0) (afterSteps_reachable (by decide))
    (show (afterSteps listenRead).trace = [] ++ (afterSteps listenRead).trace from rfl)
    (by decide) (by decide)
  exact ⟨hready, ((h.2.2.2 10 3).mp hready).2.2⟩

/-- The same read, and a second firing before `socket_recv` collects it. -/
def listenReadTwice : List Label := listenRead ++ [.tick (dataTick [4, 5, 6, 7])]

/-- The second firing stores bytes over those of the completed read, and adds to its count. -/
theorem received_data_listenReadTwice :
    Reachable (fun _ => zeroSlot) (afterSteps listenReadTwice) ∧
      Along SlotState.step (Bounded 0) (ctor fun _ => zeroSlot).slot
        (afterSteps listenReadTwice).trace ∧
      ((afterSteps listenRead).gSocRx 0).mRxState = .dataAvailable ∧
      ((afterSteps listenRead).gSocRx 0).mRxReturnCnt = 3 ∧
      ((afterSteps listenReadTwice).gSocRx 0).mRxReturnCnt = 7 ∧
      ¬ (reading True).Accepts .idle (outputs 0 (afterSteps listenReadTwice).trace) := by
  refine ⟨afterSteps_reachable (by decide), by decide, by decide, by decide, by decide, fun h => ?_⟩
  have hsplit : outputs 0 (afterSteps listenReadTwice).trace =
      (outputs 0 (afterSteps listenRead).trace ++ [.modemRecv 0 100 10 4]) ++
        .store 100 [4, 5, 6, 7] :: [.rxDone 7 false] := by decide
  have hrun : (reading True).run .idle
      (outputs 0 (afterSteps listenRead).trace ++ [.modemRecv 0 100 10 4]) = .ready 10 3 := by
    decide
  rw [hsplit] at h
  have hok := h.mid
  rw [hrun] at hok
  exact absurd hok (List.cons_ne_nil _ _)

end Bg96
