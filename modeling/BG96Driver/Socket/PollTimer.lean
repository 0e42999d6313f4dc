import BG96Driver.Socket.Timeout

/-!
# The poll timer does not run away

A socket in listening mode is polled without end, and `rx_event` adds one to its `m_rx_timer` each
time. `g_eq_event` sets the timer back after a poll that has moved it past the limit, whatever
`goSlow` has been before: the slot's own timer sets the flag between the two.

* `Started`: a read of the slot has started. Before, its timer is arbitrary memory, and the slot is
  not polled.
* `TimerBounded`: the invariant of one slot, and its step lemma.
* `Act.increments`: the timer that an act increments.
* `poll_timer_bounded`: the timer in every reachable state, and in every increment before it.
-/

namespace Bg96

open History Interface

/-- A read has started. -/
def HasStart (o : List Out) : Prop := ∃ data req, Out.rxStart data req ∈ o

/-- A read of the slot has started. -/
def Started (i : Slot) (h : Trace) : Prop := HasStart (outputs i h)

/-- The slot is polled by `g_eq_event`. -/
def RxEvent.Polled (rx : RxEvent) : Prop := rx.mRxState = .readActive ∨ rx.mRxDisTO = true

instance (rx : RxEvent) : Decidable rx.Polled :=
  inferInstanceAs (Decidable (rx.mRxState = .readActive ∨ rx.mRxDisTO = true))

/-- The timer that `rx_event` increments, where `BG96::recv` gives `res`. -/
def RxEvent.increments (rx : RxEvent) (res : RecvResult) : Option Int :=
  if res.cnt = nsapiErrorDeviceError ∨ 0 < res.cnt then none else some rx.mRxTimer

/-- The timer that an act increments: those that call `rx_event` are a `socket_recv` that starts a
read, and a turn of `g_eq_event` that polls the slot. -/
def Act.increments (st : SlotState) : Act → Option Int
  | .recv data size res =>
    if 1 ≤ size ∧ data ≠ 0 ∧ st.rx.mRxState = .readStart then
      (recvStart st.sock data size).increments res
    else none
  | .poll res _ _ => if st.rx.Polled then st.rx.increments res else none
  | _ => none

variable {i : Slot} {st : SlotState} {a : Act} {o out : List Out} {rx rx' : RxEvent}
  {res : RecvResult} {event : Event} {g g' : Bool}

theorem hasStart_append : HasStart (o ++ out) ↔ HasStart o ∨ HasStart out := by
  simp only [HasStart, List.mem_append, exists_or]

theorem not_hasStart_of_sides {l : List Side} (h : OutsOf l out) (hl : .receive ∉ l) :
    ¬ HasStart out := by
  rintro ⟨data, req, hmem⟩
  exact h.ne hl (by decide) _ hmem rfl

/-- The timer of a read that has started is in its bounds, and only such a slot is polled. -/
structure TimerBounded (rx : RxEvent) (o : List Out) : Prop where
  bounds : HasStart o → 0 ≤ rx.mRxTimer ∧ rx.mRxTimer ≤ slowPolls
  started : rx.Polled → HasStart o

/-- What leaves the timer as it is, and starts no read. -/
theorem TimerBounded.keep (h : TimerBounded rx o) (hout : ¬ HasStart out)
    (htimer : rx'.mRxTimer = rx.mRxTimer) (hpolled : rx'.Polled → rx.Polled) :
    TimerBounded rx' (o ++ out) where
  bounds hs := htimer ▸ h.bounds ((hasStart_append.mp hs).resolve_right hout)
  started hp := hasStart_append.mpr (.inl (h.started (hpolled hp)))

/-- What is bounded after a start. -/
theorem timerBounded_of_start (hs : HasStart o) (h : 0 ≤ rx.mRxTimer ∧ rx.mRxTimer ≤ slowPolls) :
    TimerBounded rx o := ⟨fun _ => h, fun _ => hs⟩

theorem timerAfter_bounds (res : RecvResult) (h : 0 ≤ rx.mRxTimer) :
    0 ≤ timerAfter rx res ∧ timerAfter rx res ≤ rx.mRxTimer + 1 := by
  unfold timerAfter
  split
  · omega
  · split <;> omega

/-- `socket_recv` starts the timer at zero. -/
theorem SocketRecvCase.timerBounded {sock : Bg96Socket} {data size : Nat} {next : Next}
    (hc : SocketRecvCase sock rx data size res rx' out next) (h : TimerBounded rx o) :
    TimerBounded rx' (o ++ out) := by
  have hstart {r : RxEvent} {o₁ : List Out} {e : Event}
      (he : RxCase (recvStart sock data size) res r o₁ e) :
      0 ≤ r.mRxTimer ∧ r.mRxTimer ≤ slowPolls := by
    have hzero : (recvStart sock data size).mRxTimer = 0 := rfl
    obtain ⟨hle, hlt⟩ := timerAfter_bounds res (Int.le_of_eq hzero.symm)
    rw [he.timer, slowPolls_eq]
    omega
  have hmem (o₁ : List Out) : HasStart (o ++ Out.rxStart data (min size bg96BuffSize) :: o₁) :=
    ⟨_, _, List.mem_append_right o List.mem_cons_self⟩
  cases hc with
  | refuse n =>
    refine h.keep ?_ rfl id
    rintro ⟨_, _, hmem⟩
    simp at hmem
  | collect =>
    refine h.keep ?_ rfl fun hp => .inr (hp.resolve_left (by rintro ⟨⟩))
    rintro ⟨_, _, hmem⟩
    simp [recvLeave] at hmem
  | block r o₁ _ _ _ he | callBack r o₁ _ _ _ he | sync r o₁ _ _ _ he =>
    have hb := hstart he
    exact timerBounded_of_start (hmem _) hb

/-- `g_eq_event` sets the timer back in the turn in which it passes the limit. -/
theorem PollRxCase.timerBounded (hc : PollRxCase rx res g rx' out event g')
    (h : TimerBounded rx o) : TimerBounded rx' (o ++ out) := by
  cases hc with
  | pass => rwa [List.append_nil]
  | poll r _ _ _ hpoll he hslow =>
    have hs := h.started hpoll
    obtain ⟨hpos, -⟩ := h.bounds hs
    have htimer := (timerAfter_bounds res hpos).1
    refine timerBounded_of_start (hasStart_append.mpr (.inl hs)) ?_
    rw [← he.timer] at htimer
    dsimp only
    by_cases hg : g' = true
    · rw [if_pos hg, slowPolls_eq]
      omega
    · rw [if_neg hg]
      have hnot : ¬ r.mRxTimer > slowPolls := fun hlt =>
        hg (by rw [hslow, decide_eq_true hlt, Bool.or_true])
      omega

/-- **Step.** Every act keeps the timer in its bounds. -/
theorem TimerBounded.step (h : TimerBounded st.rx o) :
    TimerBounded (st.step i a).1.rx (o ++ (st.step i a).2) := by
  by_cases hside : .receive ∉ a.sides
  · have hout := not_hasStart_of_sides (SlotState.step_sides i st a) hside
    cases a with
    | recv | recvRet | poll => simp [Act.sides] at hside
    | «open» | close => exact h.keep hout rfl fun hp => .inr (hp.resolve_left (by rintro ⟨⟩))
    | fireRx =>
      refine h.keep hout ?_ ?_ <;> simp only [SlotState.step, Bg96.fireRx] <;> split
      · rfl
      · rfl
      · exact fun hp => .inr (hp.resolve_left (by rintro ⟨⟩))
      · exact id
    | _ => exact h.keep hout rfl id
  · cases a with
    | recv p n res =>
      rcases he : recvEnter st.sock st.rx p n res with ⟨rx, out, next⟩
      simp only [SlotState.step, he]
      exact (recvEnter_cases he).timerBounded h
    | recvRet =>
      refine h.keep ?_ rfl fun hp => .inr (hp.resolve_left (by rintro ⟨⟩))
      rintro ⟨_, _, hmem⟩
      simp [SlotState.step, recvLeave] at hmem
    | poll res done g =>
      rcases hr : pollRx st.rx res g with ⟨rx, out, event, g'⟩
      rcases ht : pollTx st.tx done g' with ⟨tx, out', event', g''⟩
      simp only [SlotState.step, hr, ht]
      rw [← List.append_assoc]
      have hout := not_hasStart_of_sides (pollTx_cases ht).sides (by simp)
      exact ((pollRx_cases hr).timerBounded h).keep hout rfl id
    | _ => exact absurd (by simp [Act.sides]) hside

/-- An act increments a timer that is in its bounds. -/
theorem TimerBounded.increments (h : TimerBounded st.rx o) {t : Int}
    (ht : a.increments st = some t) : 0 ≤ t ∧ t ≤ slowPolls := by
  have hrx {rx : RxEvent} {res : RecvResult} (ht : rx.increments res = some t) :
      t = rx.mRxTimer := by
    unfold RxEvent.increments at ht
    split at ht
    · cases ht
    · cases ht; rfl
  cases a with
  | recv p n res =>
    obtain ⟨-, ht⟩ := Option.ite_none_right_eq_some.mp ht
    rw [hrx ht]
    exact ⟨Int.le_refl 0, Int.natCast_nonneg slowPolls⟩
  | poll res done g =>
    obtain ⟨hp, ht⟩ := Option.ite_none_right_eq_some.mp ht
    rw [hrx ht]
    exact h.bounds (h.started hp)
  | _ => cases ht

/-! ## Runs -/

variable {raw : Slot → SlotState} {s : Interface}

theorem timerBounded_ctor (raw : Slot → SlotState) (i : Slot) :
    TimerBounded ((ctor raw).slot i).rx [] where
  bounds := by rintro ⟨_, _, ⟨⟩⟩
  started := by rintro (⟨⟨⟩⟩ | ⟨⟨⟩⟩)

/-- **The poll timer.** In every state that a run reaches, the timer of a slot that has started a
read is at most the limit, and no increment on the way there has left the range of an `int`. -/
theorem poll_timer_bounded (hr : Reachable raw s) :
    (∀ i, Started i s.trace →
      0 ≤ (s.gSocRx i).mRxTimer ∧ (s.gSocRx i).mRxTimer ≤ slowPolls) ∧
    Along SlotState.step (fun _ st a => ∀ t, a.increments st = some t → 0 ≤ t ∧ t + 1 < 2 ^ 31)
      (ctor raw).slot s.trace := by
  have hs := hr.good
  refine ⟨fun i hi => ?_, ?_⟩
  · have hi' := outputs_invariant (P := fun _ _ _ => True) (k := i)
      (I := fun st o => TimerBounded st.rx o) (timerBounded_ctor raw i)
      (fun _ _ _ h _ => h.step) hs.honest (along_of_forall fun _ _ _ _ => trivial)
    rw [← hs.replay] at hi'
    exact hi'.bounds hi
  · refine along_outputs (I := fun _ st o => TimerBounded st.rx o) (timerBounded_ctor raw)
      (fun _ _ _ _ h => h.step) (fun _ st a o h t ht => ?_) hs.honest
    obtain ⟨hpos, hle⟩ := h.increments ht
    rw [slowPolls_eq] at hle
    omega

theorem poll_timer_bounded_readBoth :
    0 ≤ ((afterSteps readBoth).gSocRx 0).mRxTimer ∧
      ((afterSteps readBoth).gSocRx 0).mRxTimer ≤ slowPolls :=
  (poll_timer_bounded (afterSteps_reachable (by decide))).1 0 ⟨200, 10, by decide⟩

end Bg96
