import BG96Driver.Lib.Monitor
import BG96Driver.Socket.Schedule

/-!
# A read's time-out and the other sockets

A read with time-outs ends without bytes after `BG96_LIBRARY_READ_TIMEOUTMS/EQ_FREQ` polls in a row
that got nothing: `m_rx_timer` counts them. But the first loop of `g_eq_event` shares the flag
`goSlow` between the slots: once a slot's own timer has set it, the timers of the slots after it are
overwritten, up to the next slot that transmits.

* `SlowedBy`, `slowAt_iff`: when `goSlow` is set.
* `NotSlowed`: the firings in which no other slot sets the timer of the slot's read.
* `idlePolls`: the monitor that counts the polls in a row. `SameButTimer`: the relation of two runs.
* `read_timeout`: in a run of such firings a time-out has its polls, and what the slot shows depends
  on its own acts only.
-/

namespace Bg96

open History Interface

/-! ## The flag `goSlow` -/

/-- `m_rx_timer` after `rx_event`, where `BG96::recv` gives `res` and the read does not time out. -/
def timerAfter (rx : RxEvent) (res : RecvResult) : Int :=
  if res.cnt = nsapiErrorDeviceError then 0 else if res.cnt > 0 then rx.mRxTimer
  else rx.mRxTimer + 1

/-- The first loop of `g_eq_event` comes to the slot `i` with `goSlow`: a slot `j` before it is
polled and its timer is past the limit, and no slot from `j` on has transmitted. -/
def SlowedBy (slot : Slot → SlotState) (e : TickEnv) (i : Slot) : Prop :=
  ∃ j < i, ((slot j).rx.mRxState = .readActive ∨ (slot j).rx.mRxDisTO = true) ∧
    timerAfter (slot j).rx (e.rx j) > slowPolls ∧
    ∀ k, j ≤ k → k < i → (slot k).tx.mTxState ≠ .txActive

theorem RxCase.timer {rx rx' : RxEvent} {res : RecvResult} {o : List Out} {event : Event}
    (h : RxCase rx res rx' o event) : rx'.mRxTimer = timerAfter rx res := by
  have hneg := nsapiErrorDeviceError_neg
  unfold timerAfter
  cases h with
  | error hcnt => rw [if_pos hcnt]
  | data hcnt => rw [if_neg (show res.cnt ≠ nsapiErrorDeviceError by omega), if_pos hcnt]
  | timeout hcnt herr | idle hcnt herr => rw [if_neg herr, if_neg (Int.not_lt.mpr hcnt)]

variable {slot : Slot → SlotState} {e : TickEnv} {i j k : Slot} {g : Bool}

theorem PollRxCase.goSlow {rx rx' : RxEvent} {res : RecvResult} {g g' : Bool} {out : List Out}
    {event : Event} (h : PollRxCase rx res g rx' out event g') :
    g' = true ↔ g = true ∨ (rx.mRxState = .readActive ∨ rx.mRxDisTO = true) ∧
      timerAfter rx res > slowPolls := by
  cases h with
  | poll r _ _ _ hpoll he hslow =>
    rw [hslow, he.timer]
    simp [hpoll]
  | pass hstate hdis => simp [hstate, hdis]

theorem slowTurn_iff :
    slowTurn slot e g j = true ↔ (slot j).tx.mTxState ≠ .txActive ∧
      (g = true ∨ ((slot j).rx.mRxState = .readActive ∨ (slot j).rx.mRxDisTO = true) ∧
        timerAfter (slot j).rx (e.rx j) > slowPolls) := by
  rcases hr : pollRx (slot j).rx (e.rx j) g with ⟨rx, out, event, g'⟩
  rcases ht : pollTx (slot j).tx (e.tx j) g' with ⟨tx, out', event', g''⟩
  simp only [slowTurn, hr, ht, ← (pollRx_cases hr).goSlow]
  cases pollTx_cases ht with
  | poll _ _ _ hactive => simp [hactive]
  | pass hactive => simp [hactive]

/-- `goSlow` after the first `n` slots. -/
theorem slowTurn_foldl_iff (n : Nat) (hn : n ≤ bg96SocketCount) :
    ((List.finRange bg96SocketCount).take n).foldl (slowTurn slot e) false = true ↔
      ∃ j : Slot, j.val < n ∧ ((slot j).rx.mRxState = .readActive ∨ (slot j).rx.mRxDisTO = true) ∧
        timerAfter (slot j).rx (e.rx j) > slowPolls ∧
        ∀ k : Slot, j ≤ k → k.val < n → (slot k).tx.mTxState ≠ .txActive := by
  induction n with
  | zero => simp
  | succ n ih =>
    have hlast : (List.finRange bg96SocketCount)[n]? = some ⟨n, hn⟩ := by
      rw [List.getElem?_eq_getElem (by rw [List.length_finRange]; exact hn), List.getElem_finRange]
      rfl
    rw [List.take_add_one, hlast, Option.toList_some, List.foldl_append, List.foldl_cons,
      List.foldl_nil, slowTurn_iff, ih (by omega)]
    constructor
    · rintro ⟨htx, ⟨j, hj, hpoll, htimer, hall⟩ | ⟨hpoll, htimer⟩⟩
      · refine ⟨j, by omega, hpoll, htimer, fun k hjk hk => ?_⟩
        rcases Nat.lt_succ_iff_lt_or_eq.mp hk with hk | hk
        · exact hall k hjk hk
        · rwa [show k = ⟨n, hn⟩ from Fin.ext hk]
      · refine ⟨⟨n, hn⟩, Nat.lt_succ_self n, hpoll, htimer, fun k hjk hk => ?_⟩
        have hnk : n ≤ k.val := hjk
        rwa [show k = ⟨n, hn⟩ from Fin.ext (Nat.le_antisymm (Nat.le_of_lt_succ hk) hnk)]
    · rintro ⟨j, hj, hpoll, htimer, hall⟩
      refine ⟨hall ⟨n, hn⟩ (by show j.val ≤ n; omega) (Nat.lt_succ_self n), ?_⟩
      rcases Nat.lt_succ_iff_lt_or_eq.mp hj with hj' | hj'
      · exact .inl ⟨j, hj', hpoll, htimer, fun k hjk hk => hall k hjk (by omega)⟩
      · obtain rfl : j = ⟨n, hn⟩ := Fin.ext hj'
        exact .inr ⟨hpoll, htimer⟩

theorem slowAt_iff : slowAt slot e i = true ↔ SlowedBy slot e i :=
  slowTurn_foldl_iff i.val i.isLt.le

/-! ## The polls in a row -/

/-- The monitor that counts the polls in a row that got nothing, since the read has started. -/
def idlePolls : Monitor Nat Out where
  init := 0
  next n x :=
    match x with
    | .rxStart .. => 0
    | .modemRecv _ _ _ ret => if ret ≤ 0 ∧ ret ≠ nsapiErrorDeviceError then n + 1 else 0
    | _ => n
  ok n x :=
    match x with
    | .rxDone _ true => readTimeoutPolls < n
    | _ => True

variable {n : Nat} {x : Out} {o : List Out} {st : SlotState} {a : Act} {rx rx' : RxEvent}
  {res : RecvResult} {event : Event}

/-- What the monitor sees. -/
def Out.ofPoll : Out → Bool
  | .rxStart .. | .modemRecv .. | .rxDone .. => true
  | _ => false

theorem Out.ofPoll_of_side (h : x.side ≠ .receive) : x.ofPoll = false := by
  cases x with
  | rxStart | modemRecv | rxDone => exact absurd rfl h
  | _ => rfl

theorem idlePolls_silent (h : ∀ x ∈ o, x.ofPoll = false) :
    idlePolls.Accepts n o ∧ idlePolls.run n o = n := by
  have hx : ∀ x : Out, x.ofPoll = false → ∀ n, idlePolls.next n x = n ∧ idlePolls.ok n x := by
    intro x hx n
    cases x with
    | rxStart | modemRecv | rxDone => cases hx
    | _ => exact ⟨rfl, trivial⟩
  exact ⟨Monitor.accepts_of_silent (fun x hm n => (hx x (h x hm) n).1)
    fun x hm => (hx x (h x hm) n).2, Monitor.run_of_silent fun x hm n => (hx x (h x hm) n).1⟩

/-- The timer of a read with time-outs counts the polls in a row. -/
def TimerCounts (rx : RxEvent) (n : Nat) : Prop :=
  rx.mRxDisTO = false → rx.mRxTimer = n ∧ n ≤ readTimeoutPolls

/-- `rx_event` on a read whose timer counts. -/
theorem RxCase.counts (hc : RxCase rx res rx' o event) (h : TimerCounts rx n) :
    idlePolls.Accepts n o ∧ rx'.mRxDisTO = rx.mRxDisTO ∧
      (event = eventGetmore ∧ rx'.mRxState = rx.mRxState ∧
          TimerCounts rx' (idlePolls.run n o) ∨
        event = eventComplete ∧ rx'.mRxState ≠ .readActive) := by
  have hneg := nsapiErrorDeviceError_neg
  have hstate : ∀ c : Option Nat, (if c.isSome then RxState.readDocb else .dataAvailable) ≠
      .readActive := by intro c; split <;> simp
  cases hc with
  | error hcnt =>
    refine ⟨⟨trivial, trivial, trivial⟩, rfl, .inl ⟨rfl, rfl, fun _ => ?_⟩⟩
    simp [Monitor.run, idlePolls, hcnt]
  | data hcnt => exact ⟨⟨trivial, trivial, trivial, trivial⟩, rfl, .inr ⟨rfl, hstate _⟩⟩
  | timeout hcnt herr htimer hdis =>
    obtain ⟨hn, hle⟩ := h hdis
    refine ⟨⟨trivial, trivial, ?_, trivial⟩, rfl, .inr ⟨rfl, hstate _⟩⟩
    simp only [idlePolls, hcnt, herr, ne_eq, not_false_eq_true, and_self, ↓reduceIte]
    omega
  | idle hcnt herr hwait =>
    refine ⟨⟨trivial, trivial, trivial⟩, rfl, .inl ⟨rfl, rfl, fun hdis => ?_⟩⟩
    have hdis : rx.mRxDisTO = false := hdis
    obtain ⟨hn, hle⟩ := h hdis
    rw [hdis] at hwait
    have hlt := hwait.resolve_right (by simp)
    simp only [Monitor.run, List.foldl_cons, List.foldl_nil, idlePolls, hcnt, herr, ne_eq,
      not_false_eq_true, and_self, ↓reduceIte]
    omega

/-- The timer of an active read counts. -/
def TimerFits (st : SlotState) (n : Nat) : Prop :=
  st.rx.mRxState = .readActive → TimerCounts st.rx n

/-- No turn of the slot `i` finds a read with time-outs and `goSlow`. -/
def TurnNotSlowed (i k : Slot) (st : SlotState) (a : Act) : Prop :=
  k = i → match a with
    | .poll _ _ goSlow => st.rx.mRxState = .readActive → st.rx.mRxDisTO = false → goSlow = false
    | _ => True

/-- `socket_recv` up to its call-back. -/
theorem SocketRecvCase.counts {sock : Bg96Socket} {data size : Nat} {next : Next}
    (hc : SocketRecvCase sock rx data size res rx' o next)
    (h : rx.mRxState = .readActive → TimerCounts rx n) :
    idlePolls.Accepts n o ∧
      (rx'.mRxState = .readActive → TimerCounts rx' (idlePolls.run n o)) := by
  have hstart : TimerCounts (recvStart sock data size) 0 := fun _ => ⟨rfl, Nat.zero_le _⟩
  cases hc with
  | refuse m =>
    obtain ⟨hacc, hrun⟩ := idlePolls_silent (n := n) (o := [.ret .socketRecv m])
      (by simp [Out.ofPoll])
    exact ⟨hacc, by rw [hrun]; exact h⟩
  | collect =>
    obtain ⟨hacc, hrun⟩ := idlePolls_silent (n := n) (o := (recvLeave rx).2.1)
      (by simp [recvLeave, Out.ofPoll])
    exact ⟨hacc, by rw [hrun]; exact by rintro ⟨⟩⟩
  | block r o₁ _ _ _ hc =>
    obtain ⟨hacc, -, ⟨-, -, hcnt⟩ | ⟨he, -⟩⟩ := hc.counts hstart
    · obtain ⟨hacc', hrun⟩ := idlePolls_silent (n := idlePolls.run 0 o₁)
        (o := [.ret .socketRecv nsapiErrorWouldBlock]) (by simp [Out.ofPoll])
      refine ⟨Monitor.accepts_append.mpr ⟨⟨trivial, hacc⟩, hacc'⟩, fun _ => ?_⟩
      rw [Monitor.run_append]
      exact fun hdis => hrun ▸ hcnt hdis
    · cases he
  | callBack r o₁ _ _ _ hc =>
    obtain ⟨hacc, -⟩ := hc.counts hstart
    refine ⟨Monitor.accepts_append.mpr ⟨⟨trivial, hacc⟩, ?_⟩, by rintro ⟨⟩⟩
    exact (idlePolls_silent (by simp [Out.ofPoll])).1
  | sync r o₁ _ _ _ hc =>
    obtain ⟨hacc, -⟩ := hc.counts hstart
    refine ⟨Monitor.accepts_append.mpr ⟨⟨trivial, hacc⟩, ?_⟩, by rintro ⟨⟩⟩
    exact (idlePolls_silent (by simp [recvLeave, Out.ofPoll])).1

/-- A turn of `g_eq_event`'s first loop. -/
theorem PollRxCase.counts {g g' : Bool} (hc : PollRxCase rx res g rx' o event g')
    (h : rx.mRxState = .readActive → TimerCounts rx n)
    (hslow : rx.mRxState = .readActive → rx.mRxDisTO = false → g = false) :
    idlePolls.Accepts n o ∧
      (rx'.mRxState = .readActive → TimerCounts rx' (idlePolls.run n o)) := by
  cases hc with
  | pass => exact ⟨trivial, h⟩
  | poll r _ _ _ hpoll hc hg =>
    by_cases hs : rx.mRxState = .readActive
    · obtain ⟨hacc, hdis, ⟨-, -, hcnt⟩ | ⟨-, hdone⟩⟩ := hc.counts (h hs)
      · refine ⟨hacc, fun _ hto => ?_⟩
        have hto : r.mRxDisTO = false := hto
        obtain ⟨htimer, hle⟩ := hcnt hto
        -- the turn's own timer is far from the limit of `goSlow`
        have hlim : ¬r.mRxTimer > slowPolls := by
          rw [readTimeoutPolls_eq] at hle
          rw [htimer, slowPolls_eq]
          omega
        rw [hg, hslow hs (hdis ▸ hto)]
        simp only [Bool.false_or, decide_eq_true_eq, hlim, ↓reduceIte]
        exact ⟨htimer, hle⟩
      · exact ⟨hacc, fun hs => absurd hs hdone⟩
    · have hdis := hpoll.resolve_left hs
      obtain ⟨hacc, hdis', ⟨-, hst, -⟩ | ⟨-, hdone⟩⟩ :=
        hc.counts (n := n) fun hto => by rw [hdis] at hto; cases hto
      · exact ⟨hacc, fun hs' => absurd (hst ▸ hs') hs⟩
      · exact ⟨hacc, fun hs' => absurd hs' hdone⟩

variable (i st) in
/-- An act that is not about the read starts none. -/
theorem step_rx_of_side (hside : .receive ∉ a.sides) :
    (st.step i a).1.rx = st.rx ∨ (st.step i a).1.rx.mRxState ≠ .readActive := by
  cases a with
  | recv | recvRet | poll => simp [Act.sides] at hside
  | «open» | close => exact .inr (by rintro ⟨⟩)
  | fireRx =>
    simp only [SlotState.step, Bg96.fireRx]
    split
    · exact .inr (by rintro ⟨⟩)
    · exact .inl rfl
  | _ => exact .inl rfl

/-- **Step.** An act that is not slowed shows no early time-out, and keeps the count. -/
theorem TimerFits.step (h : TimerFits st n) (hslow : TurnNotSlowed i i st a) :
    idlePolls.Accepts n (st.step i a).2 ∧
      TimerFits (st.step i a).1 (idlePolls.run n (st.step i a).2) := by
  by_cases hside : .receive ∉ a.sides
  · obtain ⟨hacc, hrun⟩ := idlePolls_silent (n := n) (o := (st.step i a).2)
      fun x hx => Out.ofPoll_of_side ((SlotState.step_sides i st a).ne hside (by decide) x hx)
    refine ⟨hacc, fun hs => ?_⟩
    rw [hrun]
    rcases step_rx_of_side i st hside with hrx | hrx
    · rw [hrx] at hs ⊢; exact h hs
    · exact absurd hs hrx
  · have hslow := hslow rfl
    cases a with
    | recv p n res =>
      rcases he : recvEnter st.sock st.rx p n res with ⟨rx, out, next⟩
      simp only [SlotState.step, he]
      exact (recvEnter_cases he).counts h
    | recvRet =>
      obtain ⟨hacc, hrun⟩ := idlePolls_silent (n := n) (o := (recvLeave st.rx).2.1)
        (by simp [recvLeave, Out.ofPoll])
      exact ⟨hacc, by rintro ⟨⟩⟩
    | poll res done g =>
      rcases hr : pollRx st.rx res g with ⟨rx, out, event, g'⟩
      rcases ht : pollTx st.tx done g' with ⟨tx, out', event', g''⟩
      simp only [SlotState.step, hr, ht]
      obtain ⟨hacc, hrun⟩ := idlePolls_silent (n := idlePolls.run n out) (o := out')
        fun x hx => Out.ofPoll_of_side ((pollTx_cases ht).sides.ne (by simp) (by decide) x hx)
      rw [Monitor.accepts_append, Monitor.run_append, hrun]
      refine (PollRxCase.counts (pollRx_cases hr) h hslow).imp (fun h => ⟨h, hacc⟩) id
    | _ => exact absurd (by simp [Act.sides]) hside

/-! ## Two runs -/

def SlotState.setTimer (st : SlotState) (t : Int) : SlotState :=
  { st with rx := { st.rx with mRxTimer := t } }

/-- The timer of an active read with time-outs is `t`. -/
def TimerIs (rx : RxEvent) (t : Int) : Prop :=
  rx.mRxState = .readActive → rx.mRxDisTO = false → t = rx.mRxTimer

/-- The same records, but for a timer that does not matter. -/
def SameButTimer (a b : SlotState) : Prop := ∃ t, b = a.setTimer t ∧ TimerIs a.rx t

/-- What the act is but for `goSlow`, which the other slots decide. -/
def Act.seen : Act → Act
  | .poll res done _ => .poll res done false
  | a => a

theorem SameButTimer.refl (a : SlotState) : SameButTimer a a := ⟨a.rx.mRxTimer, rfl, fun _ _ => rfl⟩

theorem recvEnter_timer (sock : Bg96Socket) (p m : Nat) (res : RecvResult) {t : Int}
    (h : TimerIs rx t) :
    ∃ t', recvEnter sock { rx with mRxTimer := t } p m res =
        ({ (recvEnter sock rx p m res).1 with mRxTimer := t' }, (recvEnter sock rx p m res).2) ∧
      TimerIs (recvEnter sock rx p m res).1 t' := by
  unfold recvEnter
  dsimp only
  split
  · exact ⟨t, rfl, h⟩
  · split
    · exact ⟨_, rfl, fun _ _ => rfl⟩
    · exact ⟨t, rfl, fun hs => nomatch hs⟩
    · exact ⟨t, rfl, h⟩
    · exact ⟨t, rfl, h⟩
    · exact ⟨t, rfl, h⟩

/-- An act that is not a poll does not depend on the timer. -/
theorem step_setTimer {t : Int} (ha : a.isPoll = false) (h : TimerIs st.rx t) :
    SameButTimer (st.step i a).1 ((st.setTimer t).step i a).1 ∧
      (st.step i a).2 = ((st.setTimer t).step i a).2 := by
  cases a with
  | «open» | close | recvRet => exact ⟨⟨t, rfl, by rintro ⟨⟩⟩, rfl⟩
  | recv p m res =>
    obtain ⟨t', he, ht'⟩ := recvEnter_timer st.sock p m res h
    simp only [SlotState.step, SlotState.setTimer, he]
    exact ⟨⟨t', rfl, ht'⟩, trivial⟩
  | fireRx =>
    by_cases hs : st.rx.mRxState = .readDocb
    · simp only [SlotState.step, SlotState.setTimer, Bg96.fireRx, hs, ↓reduceIte]
      exact ⟨⟨t, rfl, by rintro ⟨⟩⟩, trivial⟩
    · simp only [SlotState.step, SlotState.setTimer, Bg96.fireRx, hs, ↓reduceIte]
      exact ⟨⟨t, rfl, h⟩, trivial⟩
  | poll => cases ha
  | _ => exact ⟨⟨t, rfl, h⟩, rfl⟩

/-- Without time-outs `rx_event` does not depend on the timer. -/
theorem rxEvent_timer (res : RecvResult) (hdis : rx.mRxDisTO = true) (t : Int) :
    ∃ t', rxEvent { rx with mRxTimer := t } res =
        ({ (rxEvent rx res).1 with mRxTimer := t' }, (rxEvent rx res).2) ∧
      (rxEvent rx res).1.mRxDisTO = true := by
  have hto : ∀ t : Int, ¬(t + 1 > readTimeoutPolls ∧ (!rx.mRxDisTO) = true) := by simp [hdis]
  unfold rxEvent
  dsimp only
  rw [if_neg (hto t), if_neg (hto rx.mRxTimer)]
  split
  · exact ⟨_, rfl, hdis⟩
  · split
    · exact ⟨t, rfl, hdis⟩
    · exact ⟨_, rfl, hdis⟩

theorem pollRx_timer (res : RecvResult) {g g' : Bool} {t : Int} (h : TimerIs rx t)
    (hslow : rx.mRxState = .readActive → rx.mRxDisTO = false → g = false ∧ g' = false) :
    ∃ t', (pollRx { rx with mRxTimer := t } res g').1 =
        { (pollRx rx res g).1 with mRxTimer := t' } ∧
      (pollRx { rx with mRxTimer := t } res g').2.1 = (pollRx rx res g).2.1 ∧
      TimerIs (pollRx rx res g).1 t' := by
  by_cases hpoll : rx.mRxState = .readActive ∨ rx.mRxDisTO = true
  · by_cases hdis : rx.mRxDisTO = true
    · obtain ⟨t', he, hdis'⟩ := rxEvent_timer res hdis t
      unfold pollRx
      dsimp only
      rw [if_pos hpoll, if_pos hpoll, he]
      exact ⟨_, rfl, rfl, fun _ hto => absurd (hdis'.symm.trans hto) (by simp)⟩
    · have hdis : rx.mRxDisTO = false := by simpa using hdis
      have hs := hpoll.resolve_right (by simp [hdis])
      obtain ⟨rfl, rfl⟩ := hslow hs hdis
      obtain rfl := h hs hdis
      exact ⟨_, rfl, rfl, fun _ _ => rfl⟩
  · unfold pollRx
    dsimp only
    rw [if_neg hpoll, if_neg hpoll]
    exact ⟨t, rfl, rfl, h⟩

theorem pollTx_goSlow (tx : TxEvent) (done g g' : Bool) :
    (pollTx tx done g).1 = (pollTx tx done g').1 ∧
      (pollTx tx done g).2.1 = (pollTx tx done g').2.1 := by
  unfold pollTx
  split <;> exact ⟨rfl, rfl⟩

theorem Act.seen_eq {y : Act} (h : a.seen = y.seen) :
    a.isPoll = false ∧ y = a ∨ ∃ res done g g', a = .poll res done g ∧ y = .poll res done g' := by
  cases a with
  | poll res done g =>
    cases y with
    | poll => cases h; exact .inr ⟨res, done, g, _, rfl, rfl⟩
    | _ => cases h
  | _ =>
    cases y with
    | poll => cases h
    | _ => exact .inl ⟨rfl, h.symm⟩

/-- **Step of two runs.** The same act, but for `goSlow`, on records that are the same but for a
timer that does not matter. -/
theorem SameButTimer.step {b : SlotState} {y : Act} (h : SameButTimer st b) (hsee : a.seen = y.seen)
    (ha : TurnNotSlowed i i st a) (hy : TurnNotSlowed i i b y) :
    SameButTimer (st.step i a).1 (b.step i y).1 ∧ (st.step i a).2 = (b.step i y).2 := by
  obtain ⟨t, rfl, ht⟩ := h
  obtain ⟨hp, rfl⟩ | ⟨res, done, g, g', rfl, rfl⟩ := Act.seen_eq hsee
  · exact step_setTimer hp ht
  · obtain ⟨t', hrx, hout, ht'⟩ := pollRx_timer res ht
      fun hs hdis => ⟨ha rfl hs hdis, hy rfl hs hdis⟩
    dsimp only [SlotState.step, SlotState.setTimer]
    rw [hrx, hout]
    obtain ⟨htx, hout'⟩ := pollTx_goSlow st.tx done (pollRx st.rx res g).2.2.2
      (pollRx { st.rx with mRxTimer := t } res g').2.2.2
    rw [htx, hout']
    exact ⟨⟨t', rfl, ht'⟩, rfl⟩

/-! ## Runs -/

/-- No firing finds a read of the slot `i` with time-outs, and sets its timer for another slot. -/
def NotSlowed (i : Slot) (s : Interface) : Label → Prop
  | .tick e => (s.gSocRx i).mRxState = .readActive → (s.gSocRx i).mRxDisTO = false →
    ¬SlowedBy s.slot e i
  | _ => True

theorem turnNotSlowed_of_isPoll (ha : a.isPoll = false) : TurnNotSlowed i k st a := by
  cases a with
  | poll => cases ha
  | _ => exact fun _ => trivial

variable {raw : Slot → SlotState} {s : Interface} {ls : List Label}

theorem Run.notSlowed (hr : Run (NotSlowed i) (ctor raw) ls s) :
    Along SlotState.step (TurnNotSlowed i) (ctor raw).slot s.trace := by
  have hstep : ∀ s l, Good (ctor raw).slot s → Enabled s l → NotSlowed i s l →
      ∀ new, (step s l).1.trace = new ++ s.trace →
        Along SlotState.step (TurnNotSlowed i) s.slot new := by
    intro s l hs _ hp new hn
    cases l with
    | tick e =>
      refine tick_along hs (fun k => ?_) (fun _ _ _ => turnNotSlowed_of_isPoll) hn
      rintro rfl hst hdis
      exact Bool.eq_false_iff.mpr fun h => hp hst hdis (slowAt_iff.mp h)
    | call | busy => exact call_along hs (by simp) (fun _ _ _ => turnNotSlowed_of_isPoll) hn
  obtain ⟨new, hn, ha⟩ := hr.along hstep (ctor_good raw)
  rwa [hn, show (ctor raw).trace = [] from rfl, List.append_nil]

/-- **A read's time-out is its own.** In a run in which no firing sets the timer of the slot's read
for another slot, a read of the slot `i` times out only after more than
`BG96_LIBRARY_READ_TIMEOUTMS/EQ_FREQ` polls in a row that got no data and no error. What the slot
shows depends on its own acts only: another such run that gives it the same acts shows the same,
whatever happens on the other slots. -/
theorem read_timeout (hr : Run (NotSlowed i) (ctor raw) ls s) :
    idlePolls.Accepts 0 (outputs i s.trace) ∧
    ∀ (raw' : Slot → SlotState) (ls' : List Label) (s' : Interface), raw' i = raw i →
      Run (NotSlowed i) (ctor raw') ls' s' →
      (inputs i s'.trace).map Act.seen = (inputs i s.trace).map Act.seen →
      outputs i s'.trace = outputs i s.trace := by
  have hh := (hr.good (ctor_good raw)).honest
  refine ⟨?_, fun raw' ls' s' hraw hr' hin => ?_⟩
  · exact (Monitor.invariant (m := idlePolls) (k := i) (I := TimerFits)
      (by simp [TimerFits, ctor]) (fun _ _ _ hI hP => hI.step hP) hh hr.notSlowed).1
  · refine (unwinding (k := i) (R := SameButTimer) (fun _ _ _ _ hR hf ha hb => hR.step hf ha hb)
      ?_ (hr'.good (ctor_good raw')).honest hh hr'.notSlowed hr.notSlowed hin).2
    rw [show (ctor raw').slot i = (ctor raw).slot i by simp only [ctor, hraw]]
    exact .refl _

instance (slot : Slot → SlotState) (e : TickEnv) (i : Slot) : Decidable (SlowedBy slot e i) :=
  inferInstanceAs (Decidable (∃ j < i, _ ∧ _ ∧ ∀ k, j ≤ k → k < i → _))

instance (i : Slot) (s : Interface) (l : Label) : Decidable (NotSlowed i s l) :=
  match l with
  | .tick e => inferInstanceAs (Decidable (_ → _ → ¬SlowedBy s.slot e i))
  | .call .. | .busy _ => isTrue trivial

/-- The modem has no bytes, and no call-back does anything. -/
def idleEnv : TickEnv where
  rx _ := ⟨0, []⟩
  tx _ := false
  onRx _ := .done
  onTx _ := .done

def recvIdle (h : Slot) : Label := .call (.recv h 200 10 ⟨0, []⟩) .done .done

/-- Slots `0` and `1` are open, and a read of slot `1` waits for one firing. -/
def readOne : List Label :=
  [.call (.open .nsapiTcp) .done .done, .call (.open .nsapiTcp) .done .done, recvIdle 1,
    .tick idleEnv]

/-- Slot `0` listens and reads too. -/
def readBoth : List Label :=
  [.call (.open .nsapiTcp) .done .done, .call (.listen 0) .done .done, recvIdle 0,
    .call (.open .nsapiTcp) .done .done, recvIdle 1, .tick idleEnv]

/-- What happens to slot `1` in both runs, the newest first. -/
def readActs : List Act :=
  [.fireTx, .fireRx, .poll ⟨0, []⟩ false false, .recv 200 10 ⟨0, []⟩, .open .nsapiTcp]

theorem read_timeout_readBoth :
    outputs 1 (afterSteps readBoth).trace = outputs 1 (afterSteps readOne).trace := by
  have hone : Run (NotSlowed 1) _ readOne (afterSteps readOne) := AllEnabled.run (by decide)
  have hboth : Run (NotSlowed 1) _ readBoth (afterSteps readBoth) := AllEnabled.run (by decide)
  have hin : (inputs 1 (afterSteps readOne).trace).map Act.seen = readActs := by rfl
  have hin' : (inputs 1 (afterSteps readBoth).trace).map Act.seen = readActs := by rfl
  exact (read_timeout hone).2 _ _ _ rfl hboth (hin'.trans hin.symm)

/-! ## A read that another slot slows -/

theorem pollTrace_comp {g : Bool} {is : List Slot} {x : Entry Slot Act Out}
    (h : x ∈ pollTrace slot e is g) : x.comp ∈ is := by
  induction is generalizing g with
  | nil => cases h
  | cons j is ih =>
    rcases List.mem_append.mp h with h | h
    · exact List.mem_cons_of_mem _ (ih h)
    · obtain rfl := List.mem_singleton.mp h
      exact List.mem_cons_self

/-- Each slot has its own turn in the first loop of `g_eq_event`. -/
theorem pollTrace_turn (slot slot' : Slot → SlotState) {pre post : List Slot} {g : Bool}
    (hn : (pre ++ i :: post).Nodup) (hslot : slot' i = slot i) :
    let r := (slot i).step i (.poll (e.rx i) (e.tx i) (pre.foldl (slowTurn slot e) g))
    after SlotState.step slot' (pollTrace slot e (pre ++ i :: post) g) i = r.1 ∧
      outputs i (pollTrace slot e (pre ++ i :: post) g) = r.2 := by
  induction pre generalizing g slot' with
  | nil =>
    obtain ⟨hi, -⟩ := List.nodup_cons.mp hn
    have hothers : ∀ u ∈ pollTrace slot e post (slowTurn slot e g i), u.comp ≠ i :=
      fun u hu hui => hi (hui ▸ pollTrace_comp hu)
    obtain ⟨hst, hout⟩ := others_eq SlotState.step slot'
      [⟨i, .poll (e.rx i) (e.tx i) g, ((slot i).step i (.poll (e.rx i) (e.tx i) g)).2⟩] hothers
    refine ⟨hst.trans ?_, hout.trans ?_⟩
    · rw [after_cons_self rfl, after_nil, hslot]; rfl
    · simp [outputs]
  | cons j pre ih =>
    obtain ⟨hj, hn⟩ := List.nodup_cons.mp hn
    have hji : j ≠ i := by rintro rfl; simp at hj
    rw [List.cons_append, pollTrace, after_append, outputs_append, outputs, if_neg hji, outputs,
      List.nil_append]
    exact ih _ hn (by rw [after_cons_ne hji, after_nil, hslot])

/-- A slot with no call-back to make has an empty turn in the second loop of `g_eq_event`. -/
theorem fireTurn_pass {s : Interface} (hrx : (s.slot i).rx.mRxState ≠ .readDocb)
    (htx : (s.slot i).tx.mTxState ≠ .txDocb) :
    fireTurn e s i = { s with trace := ⟨i, .fireTx, []⟩ :: ⟨i, .fireRx, []⟩ :: s.trace } := by
  have hr : Bg96.fireRx (s.slot i).rx = ((s.slot i).rx, [], false) := if_neg hrx
  have ht : Bg96.fireTx (s.slot i).tx = ((s.slot i).tx, [], false) := if_neg htx
  simp only [fireTurn, fireTurnRx, fireTurnTx, gSocRx, gSocTx, hr, ht, put,
    Function.update_eq_self, Bool.false_eq_true, ↓reduceIte]

theorem fireLoop_pass {s : Interface} (is : List Slot)
    (h : ∀ j, (s.slot j).rx.mRxState ≠ .readDocb ∧ (s.slot j).tx.mTxState ≠ .txDocb) :
    (is.foldl (fireTurn e) s).slot = s.slot ∧
      outputs i (is.foldl (fireTurn e) s).trace = outputs i s.trace := by
  induction is generalizing s with
  | nil => exact ⟨rfl, rfl⟩
  | cons j is ih =>
    rw [List.foldl_cons, fireTurn_pass (h j).1 (h j).2]
    obtain ⟨hst, ho⟩ := ih (s := { s with
      trace := ⟨j, .fireTx, []⟩ :: ⟨j, .fireRx, []⟩ :: s.trace }) h
    refine ⟨hst, ho.trans ?_⟩
    by_cases hj : j = i <;> simp [outputs, hj]

/-- What slot `j` does in a firing, before any call-back. -/
def turn (slot : Slot → SlotState) (e : TickEnv) (j : Slot) : SlotState × List Out :=
  (slot j).step j (.poll (e.rx j) (e.tx j) (slowAt slot e j))

/-- **A firing without call-backs** acts on each slot by itself. -/
theorem tick_turn {s0 : Slot → SlotState} {s : Interface} (hs : Good s0 s)
    (h : ∀ j, (turn s.slot e j).1.rx.mRxState ≠ .readDocb ∧
      (turn s.slot e j).1.tx.mTxState ≠ .txDocb) :
    (step s (.tick e)).1.slot = (fun j => (turn s.slot e j).1) ∧
      ∀ j, outputs j (step s (.tick e)).1.trace = outputs j s.trace ++ (turn s.slot e j).2 := by
  unfold step gEqEvent
  dsimp only
  generalize (if s.scheduledEvents > 0 then s.scheduledEvents - 1 else s.scheduledEvents) = n
  have hpoll := pollLoop (e := e) (d := eventComplete) (g := false)
    (s := { s with scheduledEvents := n, bg96Queue := s.bg96Queue - 1 })
    ⟨hs.1, hs.2, hs.3, hs.4⟩ (List.nodup_finRange _)
  rcases he : (List.finRange bg96SocketCount).foldl (pollTurn e)
    ({ s with scheduledEvents := n, bg96Queue := s.bg96Queue - 1 }, eventComplete, false)
    with ⟨s₁, done, goSlow⟩
  simp only [he] at hpoll
  simp only [Bool.not_true, Bool.false_eq_true, ↓reduceIte]
  have hturn : ∀ j, s₁.slot j = (turn s.slot e j).1 ∧
      outputs j s₁.trace = outputs j s.trace ++ (turn s.slot e j).2 := by
    intro j
    obtain ⟨pre, post, hj⟩ := List.append_of_mem (List.mem_finRange j)
    obtain ⟨hst, hout⟩ := pollTrace_turn s.slot s.slot (e := e) (g := false)
      (hj ▸ List.nodup_finRange _) rfl
    rw [← hj, take_finRange hj] at hst hout
    rw [hpoll.good.replay, hpoll.trace, after_append, outputs_append, hout, ← hs.replay, hst]
    exact ⟨rfl, rfl⟩
  have hslot : s₁.slot = fun j => (turn s.slot e j).1 := funext fun j => (hturn j).1
  have hfire := fun j => fireLoop_pass (e := e) (i := j) (s := s₁) (List.finRange bg96SocketCount)
    (by rw [hslot]; exact h)
  refine ⟨?_, fun j => ?_⟩
  · rw [← hslot, ← (hfire 0).1]; split <;> simp
  · rw [← (hturn j).2, ← (hfire j).2]; split <;> simp

/-- Slot `0` in a read without time-outs, with the timer `n`. -/
def listener (n : Int) : SlotState := ((afterSteps (readBoth.take 4)).slot 0).setTimer n

/-- The sockets after the first calls of `readBoth` and some firings. -/
def waiting (n : Int) : Slot → SlotState :=
  Function.update (afterSteps (readBoth.take 4)).slot 0 (listener n)

/-- The first calls of `readBoth`, as many firings as it takes, and then the read of slot `1` with
two firings. -/
def slowedRead : List Label :=
  readBoth.take 4 ++ List.replicate (slowPolls - 1) (.tick idleEnv) ++
    [recvIdle 1, .tick idleEnv, .tick idleEnv]

/-- The other slots wait for nothing. -/
theorem waiting_pass (n : Int) {j : Slot} (hj : j ≠ 0) :
    (waiting n j).rx.mRxState = .readStart ∧ (waiting n j).rx.mRxDisTO = false ∧
      (waiting n j).tx.mTxState = .txIdle := by
  rw [waiting, Function.update_of_ne hj]
  revert hj
  decide +revert

theorem slowAt_waiting {n : Int} (hn : n < slowPolls) (j : Slot) :
    slowAt (waiting n) idleEnv j = false := by
  refine Bool.eq_false_iff.mpr fun h => ?_
  obtain ⟨k, -, hpoll, htimer, -⟩ := slowAt_iff.mp h
  by_cases hk : k = 0
  · subst hk
    have htimer : n + 1 > slowPolls := htimer
    omega
  · obtain ⟨hrx, hdis, -⟩ := waiting_pass n hk
    simp [hrx, hdis] at hpoll

theorem pollRx_listener {n : Int} (hn : n < slowPolls) :
    (pollRx (listener n).rx ⟨0, []⟩ false).1 = (listener (n + 1)).rx := by
  have hdis : (listener n).rx.mRxDisTO = true := rfl
  have he : rxEvent (listener n).rx ⟨0, []⟩ = ((listener (n + 1)).rx,
      [.modemRecv 0 200 10 0, .store 200 []], eventGetmore) := by
    unfold rxEvent
    dsimp only
    rw [if_neg (by decide), if_neg (by decide), if_neg (by simp [hdis])]
    rfl
  have hslow : ¬(listener (n + 1)).rx.mRxTimer > slowPolls := by
    show ¬n + 1 > slowPolls
    omega
  simp only [pollRx, hdis, or_true, ↓reduceIte, he, hslow, decide_false, Bool.or_self,
    Bool.false_eq_true]

theorem turn_waiting {n : Int} (hn : n < slowPolls) (j : Slot) :
    (turn (waiting n) idleEnv j).1 = waiting (n + 1) j ∧
      (j ≠ 0 → (turn (waiting n) idleEnv j).2 = []) := by
  unfold turn
  rw [slowAt_waiting hn]
  by_cases hj : j = 0
  · subst hj
    refine ⟨?_, by simp⟩
    show { listener n with rx := (pollRx (listener n).rx ⟨0, []⟩ false).1 } = listener (n + 1)
    rw [pollRx_listener hn]
    rfl
  · obtain ⟨hrx, hdis, htx⟩ := waiting_pass n hj
    have hr : pollRx (waiting n j).rx (idleEnv.rx j) false =
      ((waiting n j).rx, [], eventComplete, false) := if_neg (by simp [hrx, hdis])
    have ht : pollTx (waiting n j).tx (idleEnv.tx j) false =
      ((waiting n j).tx, [], eventComplete, false) := if_neg (by simp [htx])
    simp only [SlotState.step, hr, ht, List.append_nil]
    exact ⟨by rw [waiting, waiting, Function.update_of_ne hj, Function.update_of_ne hj],
      fun _ => trivial⟩

/-- The timer of slot `0` grows with each firing. -/
theorem afterSteps_idleTicks {n : Nat} (hn : n < slowPolls) :
    let s := afterSteps (readBoth.take 4 ++ List.replicate n (.tick idleEnv))
    Reachable (fun _ => zeroSlot) s ∧ s.slot = waiting (n + 1) ∧
      outputs 1 s.trace = [.ret .socketOpen nsapiErrorOk] := by
  induction n with
  | zero =>
    exact ⟨afterSteps_reachable (by decide), (Function.update_eq_self ..).symm, by decide⟩
  | succ n ih =>
    obtain ⟨hr, hs, ho⟩ := ih (by omega)
    rw [List.replicate_succ', ← List.append_assoc, afterSteps_append]
    generalize afterSteps (readBoth.take 4 ++ List.replicate n (.tick idleEnv)) = s at hr hs ho
    have hq : Enabled s (.tick idleEnv) := hr.queued.live 0 (.inr (by rw [hs]; rfl))
    have hturn : ∀ j, (turn s.slot idleEnv j).1 = waiting (n + 1 + 1) j ∧
        (j ≠ 0 → (turn s.slot idleEnv j).2 = []) := by
      rw [hs]; exact turn_waiting (by omega)
    obtain ⟨hst, hout⟩ := tick_turn (e := idleEnv) hr.good fun j => by
      rw [(hturn j).1]
      by_cases hj : j = 0
      · subst hj; exact ⟨nofun, nofun⟩
      · obtain ⟨hrx, -, htx⟩ := waiting_pass (n + 1 + 1) hj
        simp [hrx, htx]
    refine ⟨hr.step _ hq, hst.trans (funext fun j => ?_), (hout 1).trans ?_⟩
    · rw [(hturn j).1]
      push_cast; rfl
    · rw [(hturn 1).2 (by decide), List.append_nil, ho]

/-- The sockets when slot `1` is in a read too, with the timer `m`. -/
def bothReading (m : Int) : Slot → SlotState :=
  Function.update (waiting slowPolls) 1 (((afterSteps (readBoth.take 5)).slot 1).setTimer m)

theorem step_recvIdle {s : Interface} (hs : s.slot = waiting slowPolls) :
    (step s (recvIdle 1)).1.slot = bothReading 1 ∧
      outputs 1 (step s (recvIdle 1)).1.trace = outputs 1 s.trace ++ [.rxStart 200 10,
        .modemRecv 1 200 10 0, .store 200 [], .ret .socketRecv nsapiErrorWouldBlock] := by
  obtain ⟨a, b, slot, t⟩ := s
  obtain rfl : slot = waiting slowPolls := hs
  have hstep : (step ⟨a, b, waiting slowPolls, t⟩ (recvIdle 1)).1 =
      (put ⟨a, b, waiting slowPolls, t⟩ 1 (((afterSteps (readBoth.take 5)).slot 1).setTimer 1)
        (.recv 200 10 ⟨0, []⟩) [.rxStart 200 10, .modemRecv 1 200 10 0, .store 200 [],
          .ret .socketRecv nsapiErrorWouldBlock]).eqSchedule := rfl
  rw [hstep, eqSchedule_slot, eqSchedule_trace]
  exact ⟨rfl, rfl⟩

theorem turn_bothReading :
    (fun j => (turn (bothReading 1) idleEnv j).1) = bothReading slowPolls := by
  funext j
  match j with
  | 0 | 1 | 2 | 3 | 4 => rfl

/-- What slot `1` shows in `slowedRead` before its read completes: three polls. -/
def slowedOuts : List Out :=
  [.ret .socketOpen nsapiErrorOk, .rxStart 200 10, .modemRecv 1 200 10 0, .store 200 [],
    .ret .socketRecv nsapiErrorWouldBlock, .modemRecv 1 200 10 0, .store 200 [],
    .modemRecv 1 200 10 0, .store 200 []]

theorem slowed_steps {raw : Slot → SlotState} {s : Interface} (hr : Reachable raw s)
    (hs : s.slot = waiting slowPolls) (ho : outputs 1 s.trace = [.ret .socketOpen nsapiErrorOk]) :
    let s' := (step (step (step s (recvIdle 1)).1 (.tick idleEnv)).1 (.tick idleEnv)).1
    Reachable raw s' ∧ outputs 1 s'.trace = slowedOuts ++ [.rxDone 0 true] := by
  intro s'
  have hr₁ := hr.step (recvIdle 1) fun h he => by
    obtain rfl : 1 = h := Option.some.inj he
    show (s.slot 1).sock.id ≠ -1
    rw [hs]
    decide
  obtain ⟨hs₁, ho₁⟩ := step_recvIdle hs
  have hr₂ := hr₁.step (.tick idleEnv) (hr₁.queued.live 1 (.inr (by rw [hs₁]; rfl)))
  obtain ⟨hs₂, ho₂⟩ := tick_turn (e := idleEnv) hr₁.good (by rw [hs₁]; decide)
  rw [hs₁, turn_bothReading] at hs₂
  have hr₃ := hr₂.step (.tick idleEnv) (hr₂.queued.live 1 (.inr (by rw [hs₂]; rfl)))
  obtain ⟨-, ho₃⟩ := tick_turn (e := idleEnv) hr₂.good (by rw [hs₂]; decide)
  refine ⟨hr₃, (ho₃ 1).trans ?_⟩
  rw [hs₂, ho₂ 1, hs₁, ho₁, ho]
  rfl

/-- The read of slot `1` times out after three polls, since slot `0` has waited for its own. -/
theorem read_timeout_slowedRead :
    Reachable (fun _ => zeroSlot) (afterSteps slowedRead) ∧
      outputs 1 (afterSteps slowedRead).trace = slowedOuts ++ [.rxDone 0 true] ∧
      ¬idlePolls.Accepts 0 (outputs 1 (afterSteps slowedRead).trace) := by
  obtain ⟨hr, hs, ho⟩ := afterSteps_idleTicks (n := slowPolls - 1) (by decide)
  rw [slowedRead, afterSteps_append, List.foldl_cons, List.foldl_cons, List.foldl_cons,
    List.foldl_nil]
  generalize afterSteps (readBoth.take 4 ++ List.replicate (slowPolls - 1) (.tick idleEnv)) = s
    at hr hs ho ⊢
  obtain ⟨hr, ho⟩ := slowed_steps hr hs ho
  rw [ho]
  refine ⟨hr, rfl, fun hacc => ?_⟩
  have hok : readTimeoutPolls < 3 := hacc.mid
  exact absurd hok (by decide)

end Bg96
