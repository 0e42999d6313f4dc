import BG96Driver.Socket.Replay

/-!
# Every transfer that waits has a queued `g_eq_event`

A transfer that `socket_send` or `socket_recv` could not complete goes on in `g_eq_event`, which
queues itself again only if a turn of its first loop asks for it, and never beyond
`BG96_SOCKET_COUNT` events.

* `TxEvent.Settled`, `RxEvent.Settled`: the states that a caller sees. `Loose`: in the middle of a
  firing of `g_eq_event`, where a call-back can be due.
* `pollLoop_busy`: what still waits after the first loop has asked for another event.
* `Queued`: the invariant of the steps, and `no_stalled_transfer` for the reachable states.
-/

namespace Bg96

open History Interface

/-! ## The states of one socket -/

/-- The transmit states that a caller sees. -/
def TxEvent.Settled (tx : TxEvent) : Prop :=
  tx.mTxState = .txIdle ∨ tx.mTxState = .txActive ∨ tx.mTxState = .txComplete

/-- The read states that a caller sees. -/
def RxEvent.Settled (rx : RxEvent) : Prop :=
  rx.mRxState = .readStart ∨ rx.mRxState = .readActive ∨ rx.mRxState = .dataAvailable

def TxEvent.Loose (tx : TxEvent) : Prop := tx.Settled ∨ tx.mTxState = .txDocb

def RxEvent.Loose (rx : RxEvent) : Prop := rx.Settled ∨ rx.mRxState = .readDocb

theorem SocketSendCase.settled {sock : Bg96Socket} {tx tx' : TxEvent} {data size : Nat}
    {done : Bool}
    {out : List Out} {next : Next} (h : SocketSendCase sock tx data size done tx' out next) :
    tx' = tx ∨ tx'.Settled := by
  cases h with
  | refuse => exact .inl rfl
  | block => exact .inr (.inr (.inl rfl))
  | callBack => exact .inr (.inr (.inr rfl))
  | collect | sync => exact .inr (.inl rfl)

theorem SocketRecvCase.settled {sock : Bg96Socket} {rx rx' : RxEvent} {data size : Nat}
    {res : RecvResult} {out : List Out} {next : Next}
    (h : SocketRecvCase sock rx data size res rx' out next) : rx' = rx ∨ rx'.Settled := by
  cases h with
  | refuse => exact .inl rfl
  | block => exact .inr (.inr (.inl rfl))
  | callBack => exact .inr (.inr (.inr rfl))
  | collect | sync => exact .inr (.inl rfl)

theorem TxCase.loose {ptr ptr' : TxEvent} {done : Bool} {out : List Out} {event : Event}
    (h : TxCase ptr done ptr' out event) (hp : ptr.Loose) : ptr'.Loose := by
  cases h with
  | idle | more => exact hp
  | last =>
    unfold TxEvent.Loose TxEvent.Settled
    dsimp only
    split <;> simp

theorem RxCase.loose {ptr ptr' : RxEvent} {res : RecvResult} {out : List Out} {event : Event}
    (h : RxCase ptr res ptr' out event) (hp : ptr.Loose) : ptr'.Loose := by
  cases h with
  | error | idle => exact hp
  | data | timeout =>
    unfold RxEvent.Loose RxEvent.Settled
    dsimp only
    split <;> simp

/-- A transmission that is still active after `tx_event` has asked for another event. -/
theorem TxCase.getmore {ptr ptr' : TxEvent} {done : Bool} {out : List Out} {event : Event}
    (h : TxCase ptr done ptr' out event) (hp : ptr'.mTxState = .txActive) :
    event = eventGetmore := by
  cases h with
  | idle | more => rfl
  | last => dsimp only at hp; split at hp <;> cases hp

theorem RxCase.getmore {ptr ptr' : RxEvent} {res : RecvResult} {out : List Out} {event : Event}
    (h : RxCase ptr res ptr' out event) (hp : ptr'.mRxState = .readActive) :
    event = eventGetmore := by
  cases h with
  | error | idle => rfl
  | data | timeout => dsimp only at hp; split at hp <;> cases hp

variable {rx rx' : RxEvent} {tx tx' : TxEvent} {res : RecvResult} {done goSlow goSlow' : Bool}
  {out : List Out} {event : Event}

theorem PollRxCase.loose (h : PollRxCase rx res goSlow rx' out event goSlow') (hp : rx.Loose) :
    rx'.Loose := by
  cases h with
  | poll r o ev g _ he => exact he.loose hp
  | pass => exact hp

theorem PollTxCase.loose (h : PollTxCase tx done goSlow tx' out event goSlow') (hp : tx.Loose) :
    tx'.Loose := by
  cases h with
  | poll t o ev _ he => exact he.loose hp
  | pass => exact hp

/-- A turn of the first loop of `g_eq_event` asks for another event if the read still waits. -/
theorem PollRxCase.getmore (h : PollRxCase rx res goSlow rx' out event goSlow')
    (hp : rx'.mRxState = .readActive) : event = eventGetmore := by
  cases h with
  | poll r o ev g _ he => exact he.getmore hp
  | pass hn => exact absurd hp hn

theorem PollTxCase.getmore (h : PollTxCase tx done goSlow tx' out event goSlow')
    (hp : tx'.mTxState = .txActive) : event = eventGetmore := by
  cases h with
  | poll t o ev _ he => exact he.getmore hp
  | pass hn => exact absurd hp hn

namespace SlotState

variable {i : Slot} {st : SlotState} {a : Act}

def Settled (st : SlotState) : Prop := st.tx.Settled ∧ st.rx.Settled

def Loose (st : SlotState) : Prop := st.tx.Loose ∧ st.rx.Loose

theorem Settled.loose (h : st.Settled) : st.Loose := ⟨.inl h.1, .inl h.2⟩

/-- An act that is not a poll leaves a transmit state alone, or sets one that a caller sees. -/
theorem step_tx (st : SlotState) (ha : a.isPoll = false) :
    (st.step i a).1.tx = st.tx ∨ (st.step i a).1.tx.Settled := by
  cases a with
  | «open» | close | sendRet => exact .inr (.inl rfl)
  | send data size done =>
    rcases he : sendEnter st.sock st.tx data size done with ⟨tx, out, next⟩
    simp only [step, he]
    exact (sendEnter_cases he).settled
  | fireTx =>
    simp only [step, Bg96.fireTx]
    split
    · exact .inr (.inr (.inr rfl))
    · exact .inl rfl
  | poll => cases ha
  | _ => exact .inl rfl

theorem step_rx (st : SlotState) (ha : a.isPoll = false) :
    (st.step i a).1.rx = st.rx ∨ (st.step i a).1.rx.Settled := by
  cases a with
  | «open» | close | recvRet => exact .inr (.inl rfl)
  | recv data size res =>
    rcases he : recvEnter st.sock st.rx data size res with ⟨rx, out, next⟩
    simp only [step, he]
    exact (recvEnter_cases he).settled
  | fireRx =>
    simp only [step, Bg96.fireRx]
    split
    · exact .inr (.inr (.inr rfl))
    · exact .inl rfl
  | poll => cases ha
  | _ => exact .inl rfl

theorem step_txSettled (ha : a.isPoll = false) (h : st.tx.Settled) :
    (st.step i a).1.tx.Settled := by
  rcases step_tx (i := i) st ha with hs | hs
  · exact hs ▸ h
  · exact hs

theorem step_rxSettled (ha : a.isPoll = false) (h : st.rx.Settled) :
    (st.step i a).1.rx.Settled := by
  rcases step_rx (i := i) st ha with hs | hs
  · exact hs ▸ h
  · exact hs

/-- `Loose` holds all along. -/
theorem step_loose (h : st.Loose) : (st.step i a).1.Loose := by
  by_cases ha : a.isPoll = true
  · cases a with
    | poll res done goSlow =>
      rcases hr : pollRx st.rx res goSlow with ⟨rx, out, event, goSlow'⟩
      rcases ht : pollTx st.tx done goSlow' with ⟨tx, out', event', goSlow''⟩
      simp only [step, hr, ht]
      exact ⟨(pollTx_cases ht).loose h.1, (pollRx_cases hr).loose h.2⟩
    | _ => cases ha
  · have ha : a.isPoll = false := by simpa using ha
    constructor
    · rcases step_tx (i := i) st ha with hs | hs
      · exact hs ▸ h.1
      · exact .inl hs
    · rcases step_rx (i := i) st ha with hs | hs
      · exact hs ▸ h.2
      · exact .inl hs

end SlotState

/-! ## The loops of `g_eq_event` -/

variable {s0 : Slot → SlotState} {s s' : Interface} {e : TickEnv} {d : Event} {g : Bool} {i : Slot}
  {is : List Slot}

theorem pollTurn_busy (h : ((pollTurn e (s, d, g) i).1.slot i).Busy) :
    (pollTurn e (s, d, g) i).2.1 = eventGetmore := by
  rcases hr : pollRx (s.gSocRx i) (e.rx i) g with ⟨rx, out, event, g'⟩
  rcases ht : pollTx (s.gSocTx i) (e.tx i) g' with ⟨tx, out', event', g''⟩
  simp only [pollTurn, hr, ht, put_slot, Function.update_self] at h ⊢
  rcases h with h | h
  · rw [(pollTx_cases ht).getmore h]; simp
  · rw [(pollRx_cases hr).getmore h]; simp

theorem pollTurn_mono (h : d = eventGetmore) : (pollTurn e (s, d, g) i).2.1 = eventGetmore := by
  subst h; simp [pollTurn]

/-- After the first loop on the slots `is`, a transfer that waits has asked for another event. -/
theorem pollLoop_busy (is : List Slot)
    (h : ∀ j, j ∉ is → (s.slot j).Busy → d = eventGetmore) (j : Slot)
    (hj : ((is.foldl (pollTurn e) (s, d, g)).1.slot j).Busy) :
    (is.foldl (pollTurn e) (s, d, g)).2.1 = eventGetmore := by
  induction is generalizing s d g with
  | nil => exact h j (by simp) hj
  | cons i is ih =>
    rw [List.foldl_cons] at hj ⊢
    rcases ht : pollTurn e (s, d, g) i with ⟨s₁, d₁, g₁⟩
    rw [ht] at hj
    refine ih (fun k hk hb => ?_) hj
    have hd : (pollTurn e (s, d, g) i).2.1 = eventGetmore := by
      by_cases hki : k = i
      · subst hki; exact pollTurn_busy (by rw [ht]; exact hb)
      · refine pollTurn_mono (h k (by simp [hki, hk]) ?_)
        rwa [show s₁ = (pollTurn e (s, d, g) i).1 by rw [ht], pollTurn_slot,
          Function.update_of_ne hki] at hb
    rwa [ht] at hd

theorem pollLoop_events (is : List Slot) :
    (is.foldl (pollTurn e) (s, d, g)).1.scheduledEvents = s.scheduledEvents ∧
      (is.foldl (pollTurn e) (s, d, g)).1.bg96Queue = s.bg96Queue := by
  induction is generalizing s d g with
  | nil => exact ⟨rfl, rfl⟩
  | cons i is ih => exact ih (s := (pollTurn e (s, d, g) i).1)

theorem fireRx_settled (h : rx.Loose) : (Bg96.fireRx rx).1.Settled := by
  unfold Bg96.fireRx
  split
  · exact .inr (.inr rfl)
  · rename_i hn; exact h.resolve_right hn

theorem fireTx_settled (h : tx.Loose) : (Bg96.fireTx tx).1.Settled := by
  unfold Bg96.fireTx
  split
  · exact .inr (.inr rfl)
  · rename_i hn; exact h.resolve_right hn

/-- A turn of the second loop leaves its slot in a state that a caller sees. -/
theorem fireTurn_settled (hs : Good s0 s) (h : (s.slot i).Loose) :
    ((fireTurn e s i).slot i).Settled := by
  obtain ⟨s₁, h₁, hrx, h₁'⟩ := fireTurnRx_calls (e := e) i hs
  obtain ⟨s₂, h₂, htx, h₂'⟩ := fireTurnTx_calls (e := e) i h₁'.good
  have hloose : ((fireTurnRx e s i).slot i).Loose :=
    (h₁.trans h₁').keeps hs (fun _ _ _ _ => SlotState.step_loose) i h
  have hr : ((fireTurnRx e s i).slot i).rx.Settled :=
    h₁'.keeps (I := fun st => st.rx.Settled) h₁.good (fun _ _ _ => SlotState.step_rxSettled) i
      (hrx ▸ fireRx_settled h.2)
  constructor
  · exact h₂'.keeps (I := fun st => st.tx.Settled) h₂.good (fun _ _ _ => SlotState.step_txSettled)
      i (htx ▸ fireTx_settled hloose.1)
  · exact (h₂.trans h₂').keeps (I := fun st => st.rx.Settled) h₁'.good
      (fun _ _ _ => SlotState.step_rxSettled) i hr

theorem step_settled {st : SlotState} {a : Act} (ha : a.isPoll = false) (h : st.Settled) :
    (st.step i a).1.Settled :=
  ⟨SlotState.step_txSettled ha h.1, SlotState.step_rxSettled ha h.2⟩

theorem fireLoop_settled (hs : Good s0 s) (h : ∀ j, (s.slot j).Loose) {j : Slot}
    (hj : j ∈ is ∨ (s.slot j).Settled) : ((is.foldl (fireTurn e) s).slot j).Settled := by
  induction is generalizing s with
  | nil => exact hj.resolve_left (by simp)
  | cons i is ih =>
    have hc : Calls s0 s (fireTurn e s i) := fireTurn_calls i s hs
    refine ih hc.good (fun k => hc.keeps hs (fun _ _ _ _ => SlotState.step_loose) k (h k)) ?_
    rcases hj with hj | hj
    · rcases List.mem_cons.mp hj with rfl | hj
      · exact .inr (fireTurn_settled hs (h j))
      · exact .inl hj
    · exact .inr (hc.keeps hs (fun _ _ _ => step_settled) j hj)

/-! ## The steps -/

/-- Between two steps: the counter is the number of queued events, every socket is in a state that
a caller sees, and a transfer that waits has a queued event. -/
structure Queued (s : Interface) : Prop where
  events : s.scheduledEvents = s.bg96Queue
  cap : s.scheduledEvents ≤ bg96SocketCount
  settled : ∀ i, (s.slot i).Settled
  live : ∀ i, (s.slot i).Busy → 0 < s.bg96Queue

theorem Queued.ofCalls (hs : Good s0 s) (hq : Queued s) (h : Calls s0 s s') : Queued s' := by
  obtain ⟨hev, hcap⟩ := h.queue ⟨hq.events, hq.cap⟩
  refine ⟨hev, hcap, fun i => h.keeps hs (fun _ _ _ => step_settled) i (hq.settled i),
    fun i hi => ?_⟩
  rcases h.live with hl | hl
  · omega
  · have := hq.live i (hl i hi)
    have := hq.events
    have := h.le
    omega

/-- A firing takes one event out of the queue. If a transfer waits at its end, then a turn of its
first loop has asked for another event, or a call-back has scheduled one. -/
theorem Queued.tick (hs : Good s0 s) (hq : Queued s) (he : 0 < s.bg96Queue) :
    Queued (step s (.tick e)).1 := by
  obtain ⟨hev, hcap, hset, hlive⟩ := hq
  have hpos : 0 < s.scheduledEvents := hev ▸ he
  simp only [step, gEqEvent, Bool.not_true, Bool.false_eq_true, ↓reduceIte, gt_iff_lt, hpos]
  have hs₁ : Good s0 { s with
      scheduledEvents := s.scheduledEvents - 1, bg96Queue := s.bg96Queue - 1 } :=
    ⟨hs.1, hs.2, hs.3, hs.4⟩
  generalize hs₁' : Interface.mk (s.scheduledEvents - 1) (s.bg96Queue - 1) s.slot s.trace = s₁
    at hs₁ ⊢
  have hp := pollLoop (e := e) (d := eventComplete) (g := false) hs₁
    (List.nodup_finRange bg96SocketCount)
  have hbusy := pollLoop_busy (s := s₁) (e := e) (d := eventComplete) (g := false)
    (List.finRange bg96SocketCount) fun j hj => absurd (List.mem_finRange j) hj
  have hevents := pollLoop_events (s := s₁) (e := e) (d := eventComplete) (g := false)
    (List.finRange bg96SocketCount)
  rcases hpoll : (List.finRange bg96SocketCount).foldl (pollTurn e) (s₁, eventComplete, false)
    with ⟨s₂, d, g⟩
  simp only [hpoll] at hp hbusy hevents ⊢
  have hloose : ∀ j, (s₂.slot j).Loose := by
    intro j
    rw [hp.good.replay, hp.trace, after_append, ← hs₁.replay]
    refine along_invariant (P := fun _ _ _ => True) ?_ (fun _ _ h _ => SlotState.step_loose h)
      (along_of_forall fun _ _ _ _ => trivial)
    subst hs₁'; exact (hset j).loose
  have hf : Calls s0 s₂ ((List.finRange bg96SocketCount).foldl (fireTurn e) s₂) :=
    fireLoop _ s₂ hp.good
  have hset' := fun j => fireLoop_settled (e := e) hp.good hloose (.inl (List.mem_finRange j))
  generalize (List.finRange bg96SocketCount).foldl (fireTurn e) s₂ = s₃ at hf hset' ⊢
  have hq₂ : s₂.scheduledEvents = s₂.bg96Queue ∧ s₂.scheduledEvents ≤ bg96SocketCount := by
    subst hs₁'; simp only at hevents; omega
  obtain ⟨hev₃, hcap₃⟩ := hf.queue hq₂
  split
  · have hsch := (Schedules.refl (s := s₃)).eqSchedule.queue ⟨hev₃, hcap₃⟩
    refine ⟨hsch.1, hsch.2, by simpa using hset', fun j _ => ?_⟩
    have := eqSchedule_pos (s := s₃)
    omega
  · rename_i hd
    refine ⟨hev₃, hcap₃, hset', fun j hj => ?_⟩
    rcases hf.live with hl | hl
    · omega
    · exact absurd (hbusy j (hl j hj)) (by simpa using hd)

theorem Queued.step (hs : Good s0 s) (hq : Queued s) {l : Label} (hl : Enabled s l) :
    Queued (step s l).1 := by
  cases l with
  | call c onConnect onData =>
    exact hq.ofCalls hs (exec_calls (Script.calls onConnect) (Script.calls onData) c s hs)
  | tick e => exact hq.tick hs hl
  | busy e =>
    obtain ⟨hev, hcap, hset, hlive⟩ := hq
    have hl : 0 < s.bg96Queue := hl
    have hpos : 0 < s.scheduledEvents := hev ▸ hl
    simp only [Bg96.step, gEqEvent, Bool.not_false, ↓reduceIte, gt_iff_lt, hpos]
    have hsch := (Schedules.refl (s := { s with
      scheduledEvents := s.scheduledEvents - 1, bg96Queue := s.bg96Queue - 1 })).eqSchedule.queue
      ⟨by simp only; omega, by simp only; omega⟩
    refine ⟨hsch.1, hsch.2, by simpa using hset, fun j _ => ?_⟩
    exact hsch.1 ▸ eqSchedule_pos

theorem Reachable.queued {raw : Slot → SlotState} (hr : Reachable raw s) : Queued s := by
  obtain ⟨ls, hr⟩ := hr
  have hinit : Queued (ctor raw) := ⟨rfl, Nat.zero_le _, fun _ => ⟨.inl rfl, .inl rfl⟩,
    fun _ hb => by rcases hb with hb | hb <;> cases hb⟩
  generalize hc : ctor raw = s₀ at hr hinit
  have hs : Good (ctor raw).slot s₀ := hc ▸ ctor_good raw
  clear hc
  induction hr with
  | nil => exact hinit
  | @cons s s' l ls he _ _ ih => exact ih (hinit.step hs he) (step_steps hs l).good

/-- **No transfer is stalled.** In every reachable state `scheduled_events` counts the queued
events, no socket is in a transient state, and a transfer that waits has a queued event. -/
theorem no_stalled_transfer {raw : Slot → SlotState} (hr : Reachable raw s) :
    s.scheduledEvents = s.bg96Queue ∧ s.scheduledEvents ≤ bg96SocketCount ∧
    (∀ i, (s.gSocTx i).mTxState = .txIdle ∨ (s.gSocTx i).mTxState = .txActive ∨
      (s.gSocTx i).mTxState = .txComplete) ∧
    (∀ i, (s.gSocRx i).mRxState = .readStart ∨ (s.gSocRx i).mRxState = .readActive ∨
      (s.gSocRx i).mRxState = .dataAvailable) ∧
    ((∃ i, (s.gSocTx i).mTxState = .txActive ∨ (s.gSocRx i).mRxState = .readActive) →
      0 < s.bg96Queue) := by
  have hq := hr.queued
  exact ⟨hq.events, hq.cap, fun i => (hq.settled i).1, fun i => (hq.settled i).2,
    fun ⟨i, hi⟩ => hq.live i hi⟩

/-- The steps of a `socket_send` that blocks on the socket that `socket_open` gives. -/
def blockedSend : List Label :=
  [.call (.open .nsapiTcp) .done .done, .call (.send 0 100 2000 false) .done .done]

theorem no_stalled_transfer_blockedSend :
    ((afterSteps blockedSend).gSocTx 0).mTxState = .txActive ∧
      0 < (afterSteps blockedSend).bg96Queue :=
  have hactive : ((afterSteps blockedSend).gSocTx 0).mTxState = .txActive := by decide
  ⟨hactive, (no_stalled_transfer (afterSteps_reachable (by decide))).2.2.2.2 ⟨0, .inl hactive⟩⟩

end Bg96
