import BG96Driver.Socket.Interface
import Mathlib.Data.List.Infix

/-!
# When a read with time-outs completes

`rx_event` counts its calls in `m_rx_timer`, up to `BG96_LIBRARY_READ_TIMEOUTMS/EQ_FREQ`. But an
error of the modem sets the timer back to 0, so a read whose errors keep coming waits for ever.

* `rxTimer`, `RxCall.timer`: the timer of a waiting read after a call of `rx_event`.
* `Waiting`: the slot is in a read with time-outs, and its timer is `t`. `Waiting.step`: what an act
  does to it.
* `Ends`: the results of the first calls after which the read does not wait any more.
* `read_completes_iff`: the read completes in time if and only if its results are such.
-/

namespace Bg96

/-- A call of `rx_event`: what `BG96::recv` gives, and whether `goSlow` sets the timer after it. -/
structure RxCall where
  res : RecvResult
  goSlow : Bool

/-- The timer after `rx_event`, for a read with time-outs; `none` if it completes. -/
def rxTimer (res : RecvResult) (t : Int) : Option Int :=
  if res.cnt = nsapiErrorDeviceError then some 0
  else if 0 < res.cnt then none
  else if t + 1 > readTimeoutPolls then none
  else some (t + 1)

/-- The timer after a turn of `g_eq_event`. -/
def RxCall.timer (t : Int) (c : RxCall) : Option Int :=
  (rxTimer c.res t).map fun t => if c.goSlow then slowPolls else t

/-- The timer after some calls. -/
def timerAfterCalls (t : Int) (cs : List RxCall) : Option Int := cs.foldlM RxCall.timer t

/-- A call brings bytes, or no call is an error of the modem, or a call after which `goSlow` sets
the timer is followed by one that is no such error. -/
def Ends (cs : List RxCall) : Prop :=
  (∃ c ∈ cs, 0 < c.res.cnt) ∨ (∀ c ∈ cs, c.res.cnt ≠ nsapiErrorDeviceError) ∨
    ∃ c d, [c, d] <:+: cs ∧ c.goSlow = true ∧ d.res.cnt ≠ nsapiErrorDeviceError

variable {i : Slot} {st : SlotState} {a : Act} {rx rx' : RxEvent} {res : RecvResult}
  {o : List Out} {event : Event} {t : Int} {c : RxCall} {cs : List RxCall}

/-! ## The timer -/

theorem rxTimer_error (h : res.cnt = nsapiErrorDeviceError) : rxTimer res t = some 0 := if_pos h

theorem rxTimer_data (h : 0 < res.cnt) : rxTimer res t = none := by
  have hneg := nsapiErrorDeviceError_neg
  rw [rxTimer, if_neg (by omega), if_pos h]

theorem rxTimer_idle (herr : res.cnt ≠ nsapiErrorDeviceError) (h : res.cnt ≤ 0) :
    rxTimer res t = if t + 1 > readTimeoutPolls then none else some (t + 1) := by
  rw [rxTimer, if_neg herr, if_neg (by omega)]

theorem timerAfterCalls_cons :
    timerAfterCalls t (c :: cs) = (c.timer t).bind fun t => timerAfterCalls t cs :=
  List.foldlM_cons

theorem timerAfterCalls_append {cs' : List RxCall} :
    timerAfterCalls t (cs ++ cs') = (timerAfterCalls t cs).bind fun t => timerAfterCalls t cs' :=
  List.foldlM_append

/-- The read waits after a call and after those that follow. -/
theorem timerAfterCalls_cons_some {t' : Int} (h : timerAfterCalls t (c :: cs) = some t') :
    ∃ u, rxTimer c.res t = some u ∧
      timerAfterCalls (if c.goSlow then slowPolls else u) cs = some t' := by
  rw [timerAfterCalls_cons, Option.bind_eq_some_iff] at h
  obtain ⟨_, hc, hcs⟩ := h
  obtain ⟨u, hu, rfl⟩ := Option.map_eq_some_iff.mp hc
  exact ⟨u, hu, hcs⟩

theorem rxTimer_some {u : Int} (h : rxTimer res t = some u) :
    res.cnt = nsapiErrorDeviceError ∧ u = 0 ∨
      res.cnt ≠ nsapiErrorDeviceError ∧ res.cnt ≤ 0 ∧ t + 1 ≤ readTimeoutPolls ∧ u = t + 1 := by
  unfold rxTimer at h
  split at h
  · rename_i herr
    cases h
    exact .inl ⟨herr, rfl⟩
  · rename_i herr
    split at h
    · cases h
    · rename_i hcnt
      split at h
      · cases h
      · rename_i hle
        cases h
        exact .inr ⟨herr, by omega, by omega, rfl⟩

/-- A read that waits has got no bytes. -/
theorem nonpos_of_waits {t' : Int} (h : timerAfterCalls t cs = some t') :
    ∀ c ∈ cs, c.res.cnt ≤ 0 := by
  have hneg := nsapiErrorDeviceError_neg
  induction cs generalizing t with
  | nil => exact List.forall_mem_nil _
  | cons c cs ih =>
    obtain ⟨u, hu, hcs⟩ := timerAfterCalls_cons_some h
    refine List.forall_mem_cons.mpr ⟨?_, ih hcs⟩
    rcases rxTimer_some hu with ⟨herr, -⟩ | ⟨-, hle, -⟩ <;> omega

/-- Without errors the timer counts the calls. -/
theorem length_of_waits {t' : Int} (ht : 0 ≤ t) (h : timerAfterCalls t cs = some t')
    (hcs : ∀ c ∈ cs, c.res.cnt ≠ nsapiErrorDeviceError) (hne : cs ≠ []) :
    t + cs.length ≤ readTimeoutPolls := by
  induction cs generalizing t with
  | nil => exact absurd rfl hne
  | cons c cs ih =>
    obtain ⟨herr, hcs⟩ := List.forall_mem_cons.mp hcs
    obtain ⟨u, hu, h⟩ := timerAfterCalls_cons_some h
    obtain ⟨-, -, hle, rfl⟩ := (rxTimer_some hu).resolve_left fun h => herr h.1
    rw [List.length_cons]
    cases cs with
    | nil =>
      rw [List.length_nil]
      exact hle
    | cons d cs =>
      have hlen := ih (by split <;> omega) h hcs (List.cons_ne_nil _ _)
      have hslow := slowPolls_eq
      rw [readTimeoutPolls_eq] at hlen ⊢
      split at hlen <;> omega

/-- After `goSlow` has set the timer, only an error keeps the read waiting. -/
theorem error_of_slowed {d : RxCall} {t' : Int} (h : timerAfterCalls t cs = some t')
    (hcd : [c, d] <:+: cs) (hslow : c.goSlow = true) : d.res.cnt = nsapiErrorDeviceError := by
  obtain ⟨p, q, rfl⟩ := hcd
  rw [List.append_assoc, timerAfterCalls_append, Option.bind_eq_some_iff] at h
  obtain ⟨t₁, -, h⟩ := h
  obtain ⟨u, -, h⟩ := timerAfterCalls_cons_some h
  obtain ⟨v, hv, -⟩ := timerAfterCalls_cons_some h
  rw [if_pos hslow] at hv
  rcases rxTimer_some hv with ⟨herr, -⟩ | ⟨-, -, hle, -⟩
  · exact herr
  · exact absurd hle (by decide)

/-- The read waits through the calls: the next one is an error, or there are too few for the timer,
or there is an error among them before the timer runs out. -/
theorem waits_of_error (hlen : cs.length ≤ readTimeoutPolls + 1)
    (hpos : ∀ c ∈ cs, c.res.cnt ≤ 0)
    (hslow : ∀ c d, [c, d] <:+: cs → c.goSlow = true → d.res.cnt = nsapiErrorDeviceError)
    (ht : (∃ c ∈ cs.head?, c.res.cnt = nsapiErrorDeviceError) ∨
      t + cs.length ≤ readTimeoutPolls ∨ t + cs.length ≤ readTimeoutPolls + 1 ∧
        ∃ c ∈ cs, c.res.cnt = nsapiErrorDeviceError) :
    ∃ t', timerAfterCalls t cs = some t' := by
  induction cs generalizing t with
  | nil => exact ⟨t, rfl⟩
  | cons c cs ih =>
    obtain ⟨hc, hpos⟩ := List.forall_mem_cons.mp hpos
    rw [List.length_cons] at hlen ht
    push_cast at ht
    have hnext (u : Int) (hu : u + cs.length ≤ readTimeoutPolls ∨
        u + cs.length ≤ readTimeoutPolls + 1 ∧ ∃ c ∈ cs, c.res.cnt = nsapiErrorDeviceError) :
        ∃ t', timerAfterCalls (if c.goSlow then slowPolls else u) cs = some t' := by
      have hinfix : ∀ c' d, [c', d] <:+: cs → c'.goSlow = true →
          d.res.cnt = nsapiErrorDeviceError := fun c' d h => hslow c' d (List.infix_cons h)
      by_cases hc : c.goSlow = true
      · cases cs with
        | nil => exact ⟨_, rfl⟩
        | cons d cs =>
          refine ih (by omega) hpos hinfix (.inl ⟨d, rfl, ?_⟩)
          exact hslow c d ⟨[], cs, rfl⟩ hc
      · rw [if_neg hc]
        exact ih (by omega) hpos hinfix (.inr hu)
    rw [timerAfterCalls_cons, RxCall.timer]
    by_cases herr : c.res.cnt = nsapiErrorDeviceError
    · rw [rxTimer_error herr]
      exact hnext 0 (.inl (by omega))
    · rw [rxTimer_idle herr hc]
      obtain hle | ⟨hle, d, hd, hderr⟩ := ht.resolve_left (by simpa using herr)
      · rw [if_neg (by omega)]
        exact hnext (t + 1) (.inl (by omega))
      · have hd : d ∈ cs := (List.mem_cons.mp hd).resolve_left (by rintro rfl; exact herr hderr)
        have hne := List.length_pos_of_mem hd
        rw [if_neg (by omega)]
        exact hnext (t + 1) (.inr ⟨by omega, d, hd, hderr⟩)

/-- The read does not wait after as many calls as the timer allows if and only if they are such. -/
theorem ends_iff (hlen : cs.length = readTimeoutPolls + 1) :
    timerAfterCalls 0 cs = none ↔ Ends cs := by
  constructor
  · intro h
    by_contra hends
    obtain ⟨hpos, herr, hslow⟩ : (∀ c ∈ cs, c.res.cnt ≤ 0) ∧
        (∃ c ∈ cs, c.res.cnt = nsapiErrorDeviceError) ∧
        ∀ c d, [c, d] <:+: cs → c.goSlow = true → d.res.cnt = nsapiErrorDeviceError := by
      simpa [Ends] using hends
    obtain ⟨t', ht'⟩ := waits_of_error (t := 0) hlen.le hpos hslow (.inr (.inr ⟨by omega, herr⟩))
    rw [h] at ht'
    cases ht'
  · intro hends
    by_contra h
    obtain ⟨t', ht'⟩ := Option.ne_none_iff_exists'.mp h
    rcases hends with ⟨c, hc, hpos⟩ | herr | ⟨c, d, hcd, hslow, hd⟩
    · have := nonpos_of_waits ht' c hc
      omega
    · have := length_of_waits (by omega) ht' herr (List.ne_nil_of_length_pos (by omega))
      omega
    · exact hd (error_of_slowed ht' hcd hslow)

/-! ## The acts of a slot -/

/-- The read of the slot waits, with this timer. -/
structure Waiting (t : Int) (rx : RxEvent) : Prop where
  state : rx.mRxState = .readActive
  disTO : rx.mRxDisTO = false
  timer : rx.mRxTimer = t

/-- A read completes: its state becomes `DATA_AVAILABLE` or `READ_DOCB`. -/
def ReadDone (o : List Out) : Prop := ∃ cnt timeout, .rxDone cnt timeout ∈ o

theorem readDone_append {o' : List Out} : ReadDone (o ++ o') ↔ ReadDone o ∨ ReadDone o' := by
  simp only [ReadDone, List.mem_append, exists_or]

theorem not_readDone (h : ∀ x ∈ o, x.side ≠ .receive) : ¬ ReadDone o := by
  rintro ⟨cnt, timeout, hmem⟩
  exact h _ hmem rfl

/-- `rx_event` completes the read, or it leaves the read waiting. -/
theorem RxCase.waits (h : RxCase rx res rx' o event) (hdis : rx.mRxDisTO = false) :
    rxTimer res rx.mRxTimer = none ∧ ReadDone o ∧ event = eventComplete ∧
        (rx'.mRxState = .dataAvailable ∨ rx'.mRxState = .readDocb) ∨
      ∃ t, rxTimer res rx.mRxTimer = some t ∧ ¬ ReadDone o ∧ event = eventGetmore ∧
        rx'.mRxState = rx.mRxState ∧ rx'.mRxDisTO = false ∧ rx'.mRxTimer = t ∧
        t ≤ readTimeoutPolls := by
  cases h with
  | error hcnt =>
    exact .inr ⟨0, rxTimer_error hcnt, by simp [ReadDone], rfl, rfl, hdis, rfl, by decide⟩
  | data hcnt =>
    refine .inl ⟨rxTimer_data hcnt, ⟨u32Add rx.mRxReturnCnt res.cnt.toNat, false, ?_⟩, rfl,
      completed_state _⟩
    simp
  | timeout hcnt herr htimer =>
    refine .inl ⟨?_, ⟨0, true, by simp⟩, rfl, completed_state _⟩
    rw [rxTimer_idle herr hcnt, if_pos htimer]
  | idle hcnt herr hwait =>
    have hle : rx.mRxTimer + 1 ≤ readTimeoutPolls := hwait.resolve_right (by simp [hdis])
    refine .inr ⟨rx.mRxTimer + 1, ?_, by simp [ReadDone], rfl, rfl, hdis, rfl, hle⟩
    rw [rxTimer_idle herr hcnt, if_neg (by omega)]

/-- A turn of `g_eq_event` completes the read, or it leaves the read waiting. -/
theorem PollRxCase.waits {g g' : Bool} (h : PollRxCase rx res g rx' o event g')
    (hw : Waiting t rx) :
    RxCall.timer t ⟨res, g⟩ = none ∧ ReadDone o ∨
      ∃ t', RxCall.timer t ⟨res, g⟩ = some t' ∧ ¬ ReadDone o ∧ Waiting t' rx' := by
  obtain ⟨hstate, hdis, rfl⟩ := hw
  cases h with
  | pass hpass => exact absurd hstate hpass
  | poll r _ _ _ _ he hslow =>
    obtain ⟨htimer, hdone, -⟩ | ⟨t, htimer, hdone, -, hstate', hdis', rfl, hle⟩ := he.waits hdis
    · refine .inl ⟨?_, hdone⟩
      rw [RxCall.timer, htimer, Option.map_none]
    · refine .inr ⟨if g then slowPolls else r.mRxTimer, ?_, hdone, ?_⟩
      · rw [RxCall.timer, htimer, Option.map_some]
      · -- the turn's own timer is far from the limit of `goSlow`
        rw [readTimeoutPolls_eq] at hle
        have hlim : ¬ r.mRxTimer > slowPolls := by
          rw [slowPolls_eq]
          omega
        rw [hslow, decide_eq_false hlim, Bool.or_false]
        exact ⟨hstate'.trans hstate, hdis', rfl⟩

namespace SlotState

/-- What a slot shows in some acts. -/
def shows (i : Slot) : SlotState → List Act → List Out
  | _, [] => []
  | st, a :: acts => (st.step i a).2 ++ shows i (st.step i a).1 acts

end SlotState

/-- The call of `rx_event` in a turn of a waiting read. -/
def Act.rxCall : Act → Option RxCall
  | .poll res _ goSlow => some ⟨res, goSlow⟩
  | _ => none

/-- The read goes on after the act, if it has not completed: the socket is not closed, and no
earlier `socket_recv` ends after its call-back. -/
def Act.KeepsRead : Act → Prop
  | .open _ | .close | .recvRet => False
  | _ => True

/-- **Step.** A turn completes the read or sets its timer; other acts leave the read alone. -/
theorem Waiting.step (i : Slot) (h : Waiting t st.rx) (ha : a.KeepsRead) :
    match a.rxCall with
    | some c => c.timer t = none ∧ ReadDone (st.step i a).2 ∨
        ∃ t', c.timer t = some t' ∧ ¬ ReadDone (st.step i a).2 ∧ Waiting t' (st.step i a).1.rx
    | none => ¬ ReadDone (st.step i a).2 ∧ Waiting t (st.step i a).1.rx := by
  have hframe (hside : .receive ∉ a.sides) (ho : .session ∉ a.sides) (hf : a ≠ .fireRx) :
      ¬ ReadDone (st.step i a).2 ∧ Waiting t (st.step i a).1.rx := by
    rw [(SlotState.step_rx_frame i st hside ho hf).1]
    exact ⟨not_readDone ((SlotState.step_sides i st a).ne hside (by decide)), h⟩
  cases a with
  | «open» | close | recvRet => exact ha.elim
  | poll res done g =>
    rcases hr : pollRx st.rx res g with ⟨rx, out, event, g'⟩
    rcases ht : pollTx st.tx done g' with ⟨tx, out', event', g''⟩
    have hout : ¬ ReadDone out' :=
      not_readDone ((pollTx_cases ht).sides.ne (by decide) (by decide))
    simp only [Act.rxCall, SlotState.step, hr, ht, readDone_append, hout, or_false]
    exact (pollRx_cases hr).waits h
  | recv data size res =>
    rcases he : recvEnter st.sock st.rx data size res with ⟨rx, out, next⟩
    simp only [Act.rxCall, SlotState.step, he]
    cases recvEnter_cases he with
    | refuse n => exact ⟨by simp [ReadDone], h⟩
    | collect _ _ hstate | block _ _ _ _ hstate | callBack _ _ _ _ hstate | sync _ _ _ _ hstate =>
      rw [h.state] at hstate
      cases hstate
  | fireRx =>
    have hfire : Bg96.fireRx st.rx = (st.rx, [], false) := if_neg (by simp [h.state])
    simp only [Act.rxCall, SlotState.step, hfire]
    exact ⟨by simp [ReadDone], h⟩
  | _ => exact hframe (by simp [Act.sides]) (by simp [Act.sides]) (by simp)

/-- **Run.** A waiting read completes in some acts if and only if the timer does not outlast its
calls. -/
theorem Waiting.completes_iff (i : Slot) {acts : List Act} (h : Waiting t st.rx)
    (hacts : ∀ a ∈ acts, a.KeepsRead) :
    ReadDone (st.shows i acts) ↔ timerAfterCalls t (acts.filterMap Act.rxCall) = none := by
  induction acts generalizing st t with
  | nil => simp [ReadDone, SlotState.shows, timerAfterCalls]
  | cons a acts ih =>
    obtain ⟨ha, hacts⟩ := List.forall_mem_cons.mp hacts
    have hstep := h.step i ha
    rw [SlotState.shows, readDone_append, List.filterMap_cons]
    split at hstep
    · rename_i c hc
      rw [hc]
      dsimp only
      rw [timerAfterCalls_cons]
      obtain ⟨htimer, hdone⟩ | ⟨t', htimer, hdone, hw⟩ := hstep
      · rw [htimer]
        exact iff_of_true (.inl hdone) rfl
      · rw [htimer, or_iff_right hdone]
        exact ih hw hacts
    · rename_i hc
      rw [hc, or_iff_right hstep.1]
      exact ih hstep.2 hacts

/-- `socket_recv` starts a read: it completes at once, or it waits. -/
theorem step_recv_waits (i : Slot) (res : RecvResult) {data size : Nat}
    (hstart : st.rx.mRxState = .readStart) (hdis : st.sock.disTO = false) (hsize : 1 ≤ size)
    (hdata : data ≠ 0) :
    rxTimer res 0 = none ∧ ReadDone (st.step i (.recv data size res)).2 ∨
      ∃ t, rxTimer res 0 = some t ∧ ¬ ReadDone (st.step i (.recv data size res)).2 ∧
        Waiting t (st.step i (.recv data size res)).1.rx := by
  rcases he : recvEnter st.sock st.rx data size res with ⟨rx, out, next⟩
  simp only [SlotState.step, he]
  cases recvEnter_cases he with
  | refuse n _ hcase =>
    rcases hcase with harg | ⟨hne, -⟩
    · exact absurd harg (by omega)
    · exact absurd hstart hne
  | collect _ _ hstate =>
    rw [hstart] at hstate
    cases hstate
  | block r o _ _ _ hevent =>
    obtain ⟨-, -, ⟨⟩, -⟩ | ⟨t, htimer, hdone, -, -, hdis', ht, -⟩ := hevent.waits hdis
    refine .inr ⟨t, htimer, ?_, rfl, hdis', ht⟩
    simpa [ReadDone] using hdone
  | callBack r o _ _ _ hevent | sync r o _ _ _ hevent =>
    obtain ⟨htimer, ⟨cnt, timeout, hmem⟩, -⟩ | ⟨_, -, -, ⟨⟩, -⟩ := hevent.waits hdis
    exact .inl ⟨htimer, cnt, timeout, by simp [hmem]⟩

/-- A read completes if and only if the timer does not outlast its calls. -/
theorem readDone_iff (i : Slot) {data size : Nat} {acts : List Act}
    (hstart : st.rx.mRxState = .readStart) (hdis : st.sock.disTO = false) (hsize : 1 ≤ size)
    (hdata : data ≠ 0) (hacts : ∀ a ∈ acts, a.KeepsRead) :
    ReadDone (st.shows i (.recv data size res :: acts)) ↔
      timerAfterCalls 0 (⟨res, false⟩ :: acts.filterMap Act.rxCall) = none := by
  rw [timerAfterCalls_cons, SlotState.shows, readDone_append, RxCall.timer]
  obtain ⟨htimer, hdone⟩ | ⟨t, htimer, hdone, hw⟩ :=
    step_recv_waits i res hstart hdis hsize hdata
  · rw [htimer]
    exact iff_of_true (.inl hdone) rfl
  · rw [htimer, or_iff_right hdone]
    exact hw.completes_iff i hacts

/-- **Completion of reads.** The slot starts a read with time-outs, and comes to as many calls of
`rx_event` as the timer allows. The read completes in them if and only if their results are such. -/
theorem read_completes_iff (i : Slot) (st : SlotState) (data size : Nat) (res : RecvResult)
    (acts : List Act) (hstart : st.rx.mRxState = .readStart) (hdis : st.sock.disTO = false)
    (hsize : 1 ≤ size) (hdata : data ≠ 0) (hacts : ∀ a ∈ acts, a.KeepsRead)
    (hcalls : (acts.filterMap Act.rxCall).length = readTimeoutPolls) :
    ReadDone (st.shows i (.recv data size res :: acts)) ↔
      Ends (⟨res, false⟩ :: acts.filterMap Act.rxCall) := by
  rw [readDone_iff i hstart hdis hsize hdata hacts, ends_iff]
  rw [List.length_cons, hcalls]

/-- A socket that has been opened. -/
def openedSlot : SlotState := (zeroSlot.step 0 (.open .nsapiTcp)).1

/-- As many turns as the timer allows, all with one result. -/
def turnsWith (cnt : Int) : List Act :=
  List.replicate readTimeoutPolls (.poll ⟨cnt, []⟩ false false)

theorem turnsWith_keeps (cnt : Int) : ∀ a ∈ turnsWith cnt, a.KeepsRead := fun _ ha => by
  rw [List.eq_of_mem_replicate ha]
  trivial

theorem turnsWith_calls (cnt : Int) :
    (turnsWith cnt).filterMap Act.rxCall = List.replicate readTimeoutPolls ⟨⟨cnt, []⟩, false⟩ :=
  List.filterMap_replicate_of_some rfl

theorem turnsWith_length (cnt : Int) :
    ((turnsWith cnt).filterMap Act.rxCall).length = readTimeoutPolls := by
  rw [turnsWith_calls, List.length_replicate]

theorem mem_turnsWith {cnt : Int}
    (hc : c ∈ ⟨⟨cnt, []⟩, false⟩ :: (turnsWith cnt).filterMap Act.rxCall) :
    c = ⟨⟨cnt, []⟩, false⟩ := by
  rw [turnsWith_calls] at hc
  exact (List.mem_cons.mp hc).elim id List.eq_of_mem_replicate

/-- A read that gets nothing times out. -/
theorem read_completes_iff_idle :
    ReadDone (openedSlot.shows 0 (.recv 200 10 ⟨0, []⟩ :: turnsWith 0)) := by
  refine (read_completes_iff 0 openedSlot 200 10 ⟨0, []⟩ (turnsWith 0) rfl rfl (by decide)
    (by decide) (turnsWith_keeps 0) (turnsWith_length 0)).mpr (.inr (.inl fun c hc => ?_))
  rw [mem_turnsWith hc]
  decide

/-- A read whose calls all meet an error of the modem still waits. -/
theorem read_completes_iff_failing : ¬ ∀ (i : Slot) (st : SlotState) (data size : Nat)
    (res : RecvResult) (acts : List Act), st.rx.mRxState = .readStart → st.sock.disTO = false →
      1 ≤ size → data ≠ 0 → (∀ a ∈ acts, a.KeepsRead) →
      (acts.filterMap Act.rxCall).length = readTimeoutPolls →
      ReadDone (st.shows i (.recv data size res :: acts)) := by
  intro h
  have hdone := h 0 openedSlot 200 10 ⟨nsapiErrorDeviceError, []⟩ (turnsWith nsapiErrorDeviceError)
    rfl rfl (by decide) (by decide) (turnsWith_keeps _) (turnsWith_length _)
  rw [readDone_iff 0 rfl rfl (by decide) (by decide) (turnsWith_keeps _),
    ends_iff (by rw [List.length_cons, turnsWith_length])] at hdone
  rcases hdone with ⟨c, hc, hpos⟩ | herr | ⟨c, d, hcd, hslow, -⟩
  · rw [mem_turnsWith hc] at hpos
    exact absurd hpos (by decide)
  · exact herr _ List.mem_cons_self rfl
  · rw [mem_turnsWith (hcd.subset List.mem_cons_self)] at hslow
    cases hslow

end Bg96
