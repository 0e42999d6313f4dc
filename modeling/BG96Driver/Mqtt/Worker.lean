import BG96Driver.Lib.Threads
import BG96Driver.Lib.Walk
import BG96Driver.Mqtt.Session

/-!
# The worker of the MQTT client

`dowork` starts a thread that runs `mqtt_task` and keeps a pointer to it. It does not look at the
pointer that is there: the thread before is lost to `stopRunning`, and its loop goes on as long as
it reads `_running` as set.

* `connect`, `dowork`, `stopRunning`, `disconnect`: the operations.
* `Workers`, `working`: the flag, the pointer and the workers. `WorkerStep`: a worker ends.
* `Attended`: the invariant. The only worker is the one that the pointer is to.
* `worker_iff`: in every sequence of calls there is at most one worker at any time, and none after a
  stop, if `dowork` is called without a thread, and only then if it gets one.
-/

namespace Bg96.Mqtt

open Program Transitions Modem

/-! ## The operations -/

/-- What an operation does: it sets `_running`, reads and sets `_mqtt_thread`, creates, terminates
and joins a thread, and calls `BG96`. A thread is a number. -/
inductive ThreadCall where
  | setRunning (running : Bool)
  | mqttThread
  | setMqttThread (thread : Option Nat)
  | newThread
  | terminate (w : Nat)
  | join (w : Nat)
  | mqttConnect (ctx : MqttConnectCtx)
  | mqttDisconnect

/-- What a call gives. `mqttConnect` gives its `ConnectResult`. -/
@[reducible] def ThreadCall.Reply : ThreadCall → Type
  | .mqttThread | .newThread => Option Nat
  | .mqttConnect _ => ConnectResult
  | .mqttDisconnect => Int
  | .setRunning _ | .setMqttThread _ | .terminate _ | .join _ => Unit

/-- A program of these calls. -/
abbrev Threading := Prog ThreadCall ThreadCall.Reply

/-- `BG96MQTTClient::connect`. -/
def connect (ctx : MqttConnectCtx) : Threading Int :=
  .call (.mqttConnect ctx) fun result =>
    if result.result = 0 ∧ result.rc = 0 then
      .call (.setRunning true) fun _ => .ret nsapiErrorOk
    else .ret (MqttSession.connectError result.rc)

/-- `BG96MQTTClient::stopRunning`. -/
def stopRunning : Threading Unit :=
  .call (.setRunning false) fun _ => .call .mqttThread fun thread =>
    match thread with
    | some w =>
      .call (.terminate w) fun _ => .call (.join w) fun _ => .call (.setMqttThread none) .ret
    | none => .ret ()

/-- `BG96MQTTClient::disconnect`. -/
def disconnect : Threading Int := do
  stopRunning
  .call .mqttDisconnect .ret

/-- `BG96MQTTClient::dowork`. -/
def dowork : Threading Int :=
  .call (.setRunning true) fun _ => .call .newThread fun thread =>
    .call (.setMqttThread thread) fun _ => .ret (if thread.isSome then 0 else -1)

/-- A call of the client. -/
inductive WorkerCall where
  | connect (ctx : MqttConnectCtx)
  | dowork
  | disconnect
  | stopRunning

@[reducible] def WorkerCall.Reply : WorkerCall → Type
  | .connect _ | .dowork | .disconnect => Int
  | .stopRunning => Unit

def WorkerCall.run : (c : WorkerCall) → Threading c.Reply
  | .connect ctx => Mqtt.connect ctx
  | .dowork => Mqtt.dowork
  | .disconnect => Mqtt.disconnect
  | .stopRunning => Mqtt.stopRunning

/-! ## The workers -/

/-- `_running`, `_mqtt_thread`, the workers that are live, the number of threads that have been
created, and the largest number of workers that have been live at a time. -/
structure Workers where
  running : Bool
  mqttThread : Option Nat
  live : List Nat
  created : Nat
  most : Nat

namespace Workers

/-- `BG96MQTTClient::BG96MQTTClient`. -/
def ctor : Workers := ⟨false, none, [], 0, 0⟩

/-- A thread is created, and its worker is live. -/
def create (s : Workers) : Workers :=
  { s with
    live := s.created :: s.live
    created := s.created + 1
    most := max s.most (s.live.length + 1) }

/-- A worker is no longer live. -/
def remove (s : Workers) (w : Nat) : Workers := { s with live := s.live.erase w }

end Workers

/-- The loop of `mqtt_task` ends when it reads `_running` as not set. -/
inductive WorkerStep : Workers → Workers → Prop where
  | ends {s : Workers} (w : Nat) (h : s.running = false) : WorkerStep s (s.remove w)

/-- The calls of the operations. A worker is live until it is joined. -/
def working : Env Workers ThreadCall ThreadCall.Reply := fun s c r s' =>
  match c, r with
  | .setRunning running, _ => s' = { s with running := running }
  | .mqttThread, r => r = s.mqttThread ∧ s' = s
  | .setMqttThread thread, _ => s' = { s with mqttThread := thread }
  | .newThread, r => r = some s.created ∧ s' = s.create ∨ r = none ∧ s' = s
  | .join w, _ => s' = s.remove w
  | .terminate _, _ | .mqttConnect _, _ | .mqttDisconnect, _ => s' = s

/-- A call that returns, in any order with the steps of the workers. -/
def called (s : Workers) (c : WorkerCall) (s' : Workers) : Prop :=
  ∃ r, Runs (beside WorkerStep working) c.run s (some r) s'

/-! ## The invariant -/

variable {s s' : Workers} {w : Nat} {c : WorkerCall}

/-- The only worker is the one that the pointer is to, and while there is one, `_running` is set. -/
structure Attended (s : Workers) : Prop where
  live : s.live = s.mqttThread.toList
  running : s.mqttThread.isSome → s.running = true
  most : s.most ≤ 1

theorem attended_ctor : Attended .ctor := ⟨rfl, nofun, Nat.zero_le 1⟩

theorem Attended.length_le (h : Attended s) : s.live.length ≤ 1 := by
  rw [h.live]
  cases s.mqttThread <;> simp

/-- No worker ends while there is a thread. -/
theorem attended_stable : Stable WorkerStep Attended := by
  rintro s _ ⟨w, hstop⟩ hs
  cases hthread : s.mqttThread with
  | some v =>
    have hrun := hs.running (by rw [hthread]; rfl)
    rw [hstop] at hrun
    cases hrun
  | none =>
    have hnil : s.live = [] := by rw [hs.live, hthread]; rfl
    refine ⟨?_, hs.running, hs.most⟩
    show s.live.erase w = s.mqttThread.toList
    rw [hnil, hthread]
    rfl

/-- While a stop is going on: the worker may have ended by itself. -/
structure Stopping (thread : Option Nat) (s : Workers) : Prop where
  mqttThread : s.mqttThread = thread
  live : s.live = [] ∨ s.live = thread.toList
  most : s.most ≤ 1

theorem stopping_stable (thread : Option Nat) : Stable WorkerStep (Stopping thread) := by
  rintro s _ ⟨w, -⟩ hs
  refine ⟨hs.mqttThread, ?_, hs.most⟩
  show s.live.erase w = [] ∨ s.live.erase w = thread.toList
  rcases hs.live with hlive | hlive
  · rw [hlive]
    exact .inl rfl
  · rw [hlive]
    cases thread with
    | none => exact .inl rfl
    | some v =>
      by_cases heq : v = w
      · subst heq
        exact .inl (List.erase_cons_head ..)
      · exact .inr (List.erase_of_not_mem (by simpa using Ne.symm heq))

/-- The worker has been joined. -/
structure Joined (s : Workers) : Prop where
  live : s.live = []
  most : s.most ≤ 1

theorem joined_stable : Stable WorkerStep Joined := by
  rintro s _ ⟨w, -⟩ hs
  refine ⟨?_, hs.most⟩
  show s.live.erase w = []
  rw [hs.live]
  rfl

/-- No worker ends while `_running` is set. -/
theorem running_stable (hs : s.running = true) : Stable WorkerStep (· = s) := by
  rintro _ _ ⟨w, hstop⟩ rfl
  rw [hstop] at hs
  cases hs

theorem thread_stable (thread : Option Nat) : Stable WorkerStep (·.mqttThread = thread) := by
  rintro s _ ⟨w, -⟩ hs
  exact hs

/-! ## What the operations do -/

theorem connect_spec (ctx : MqttConnectCtx) (hs : Attended s) :
    wp (beside WorkerStep working) False (fun _ s' => Attended s') (connect ctx) s := by
  refine wp_beside attended_stable hs ?_
  rintro t result _ ht rfl
  show wp _ _ _ (if result.result = 0 ∧ result.rc = 0 then _ else _) _
  split
  · refine wp_beside attended_stable ht ?_
    rintro u _ _ hu rfl
    exact ⟨hu.live, fun _ => rfl, hu.most⟩
  · exact ht

theorem stopRunning_spec (hs : Attended s) :
    wp (beside WorkerStep working) False (fun _ s' => Attended s' ∧ s'.live = [])
      stopRunning s := by
  refine wp_beside attended_stable hs ?_
  rintro t _ _ ht rfl
  have hstopping : Stopping t.mqttThread { t with running := false } := ⟨rfl, .inr ht.live, ht.most⟩
  refine wp_beside (stopping_stable t.mqttThread) hstopping ?_
  rintro _ _ u hu ⟨rfl, rfl⟩
  rw [hu.mqttThread]
  cases hthread : t.mqttThread with
  | none =>
    rw [hthread] at hu
    have hnil : u.live = [] := hu.live.elim id id
    refine ⟨⟨?_, ?_, hu.most⟩, hnil⟩
    · rw [hnil, hu.mqttThread]
      rfl
    · rw [hu.mqttThread]
      exact nofun
  | some w =>
    rw [hthread] at hu
    refine wp_beside (stopping_stable (some w)) hu ?_
    rintro u₁ _ _ hu₁ rfl
    refine wp_beside (stopping_stable (some w)) hu₁ ?_
    rintro u₂ _ _ hu₂ rfl
    have hjoined : Joined (u₂.remove w) := by
      refine ⟨?_, hu₂.most⟩
      show u₂.live.erase w = []
      rcases hu₂.live with hlive | hlive
      · rw [hlive]
        rfl
      · rw [hlive]
        exact List.erase_cons_head ..
    refine wp_beside joined_stable hjoined ?_
    rintro u₃ _ _ hu₃ rfl
    exact ⟨⟨hu₃.live, nofun, hu₃.most⟩, hu₃.live⟩

theorem disconnect_spec (hs : Attended s) :
    wp (beside WorkerStep working) False (fun _ s' => Attended s' ∧ s'.live = []) disconnect s := by
  show wp _ _ _ (stopRunning >>= _) s
  rw [wp_bind]
  refine wp_mono (stopRunning_spec hs) fun _ t ht => ?_
  refine wp_beside (attended_stable.and joined_stable) ⟨ht.1, ht.2, ht.1.most⟩ ?_
  rintro u rc _ ⟨hu, hjoined⟩ rfl
  exact ⟨hu, hjoined.live⟩

/-- Without a thread, the new worker is the only one. With one, a new worker is the second. -/
theorem dowork_spec (hs : Attended s) :
    wp (beside WorkerStep working) False (fun _ s' =>
      (s.mqttThread = none → Attended s') ∧
      (s.mqttThread.isSome → s'.mqttThread.isSome → 2 ≤ s'.most)) dowork s := by
  refine wp_beside (attended_stable.and (thread_stable s.mqttThread)) ⟨hs, rfl⟩ ?_
  rintro t _ _ ⟨ht, hthread⟩ rfl
  refine wp_beside (running_stable rfl) rfl ?_
  rintro _ thread _ rfl (⟨rfl, rfl⟩ | ⟨rfl, rfl⟩)
  · -- a thread is created
    refine wp_beside (running_stable rfl) rfl ?_
    rintro _ _ _ rfl rfl
    have hlen := congrArg List.length ht.live
    have hmost := ht.most
    refine ⟨fun hnone => ⟨?_, fun _ => rfl, ?_⟩, fun hsome _ => ?_⟩
    · show t.created :: t.live = [t.created]
      rw [ht.live, hthread, hnone]
      rfl
    · show max t.most (t.live.length + 1) ≤ 1
      rw [hthread, hnone, Option.toList_none, List.length_nil] at hlen
      omega
    · show 2 ≤ max t.most (t.live.length + 1)
      obtain ⟨v, hv⟩ := Option.isSome_iff_exists.mp hsome
      rw [hthread, hv, Option.toList_some, List.length_singleton] at hlen
      omega
  · -- no thread is created
    refine wp_beside (running_stable rfl) rfl ?_
    rintro _ _ _ rfl rfl
    refine ⟨fun hnone => ⟨?_, nofun, ht.most⟩, fun _ => nofun⟩
    show t.live = []
    rw [ht.live, hthread, hnone]
    rfl

/-! ## Every sequence of calls -/

/-- At most one worker has been live at a time, and after a stop none is. -/
def AtMostOne (_ : Workers) (c : WorkerCall) (s' : Workers) : Prop :=
  s'.most ≤ 1 ∧ (c = .stopRunning ∨ c = .disconnect → s'.live = [])

/-- `dowork` is called without a thread. -/
def Unattended (s : Workers) (c : WorkerCall) (_ : Workers) : Prop :=
  c = .dowork → s.mqttThread = none

/-- `dowork` gets a thread. -/
def GetsThread (_ : Workers) (c : WorkerCall) (s' : Workers) : Prop :=
  c = .dowork → s'.mqttThread.isSome

/-- A call from a state with the invariant keeps it, and has at most one worker, unless it is
`dowork` with a thread; this one has two if it gets a thread. -/
theorem called_attended (hs : Attended s) (h : called s c s') :
    (Unattended s c s' → Attended s' ∧ AtMostOne s c s') ∧
      (GetsThread s c s' → AtMostOne s c s' → Unattended s c s') := by
  obtain ⟨r, hrun⟩ := h
  cases c with
  | connect ctx =>
    have hend := hrun.ends (connect_spec ctx hs)
    exact ⟨fun _ => ⟨hend, hend.most, by simp⟩, fun _ _ => nofun⟩
  | dowork =>
    obtain ⟨hone, htwo⟩ := hrun.ends (dowork_spec hs)
    constructor
    · intro hnone
      have hend := hone (hnone rfl)
      exact ⟨hend, hend.most, by simp⟩
    · intro hgets hmost _
      cases hthread : s.mqttThread with
      | none => rfl
      | some v =>
        have htwo' := htwo (by rw [hthread]; rfl) (hgets rfl)
        have hone' := hmost.1
        omega
  | disconnect =>
    obtain ⟨hend, hnil⟩ := hrun.ends (disconnect_spec hs)
    exact ⟨fun _ => ⟨hend, hend.most, fun _ => hnil⟩, fun _ _ => nofun⟩
  | stopRunning =>
    obtain ⟨hend, hnil⟩ := hrun.ends (stopRunning_spec hs)
    exact ⟨fun _ => ⟨hend, hend.most, fun _ => hnil⟩, fun _ _ => nofun⟩

/-- **The worker.** In every sequence of calls, if `dowork` is only called without a thread, there
is at most one worker at any time, and none after a stop. If `dowork` always gets a thread, this is
also the only way. -/
theorem worker_iff {hist : List (Workers × WorkerCall × Workers)} (h : Walk called .ctor hist s) :
    (All Unattended hist → All AtMostOne hist) ∧
      (All GetsThread hist → (All AtMostOne hist ↔ All Unattended hist)) := by
  have hkeeps : ∀ s c s', Attended s → called s c s' → Unattended s c s' → Attended s' :=
    fun s c s' hs hcall hc => ((called_attended hs hcall).1 hc).1
  have hsound : All Unattended hist → All AtMostOne hist := fun hC => by
    have hboth := h.exact (G := fun s c s' => AtMostOne s c s' ∧ Unattended s c s') attended_ctor
      (fun s c s' hs hcall => ⟨And.right, fun hc => ⟨((called_attended hs hcall).1 hc).2, hc⟩⟩)
      hkeeps
    exact (all_and.mp (hboth.mpr hC)).1
  refine ⟨hsound, fun hgets => ⟨fun hG => ?_, hsound⟩⟩
  have hboth := h.exact (G := fun s c s' => AtMostOne s c s' ∧ GetsThread s c s')
    (C := fun s c s' => Unattended s c s' ∧ GetsThread s c s') attended_ctor
    (fun s c s' hs hcall => and_congr_left fun hgets =>
      ⟨(called_attended hs hcall).2 hgets, fun hc => ((called_attended hs hcall).1 hc).2⟩)
    (fun s c s' hs hcall hc => hkeeps s c s' hs hcall hc.1)
  exact (all_and.mp (hboth.mp (all_and.mpr ⟨hG, hgets⟩))).1

/-! ### One call of `dowork`, and two -/

/-- After a call of `dowork`, after a stop, and after another call of `dowork`. -/
def attendedOnce : Workers := ⟨true, some 0, [0], 1, 1⟩

def stopped : Workers := ⟨false, none, [], 1, 1⟩

def attendedTwice : Workers := ⟨true, some 1, [1, 0], 2, 2⟩

theorem called_dowork : called .ctor .dowork attendedOnce :=
  ⟨0, .call (r := ()) ⟨_, .refl, rfl⟩ (.call ⟨_, .refl, .inl ⟨rfl, rfl⟩⟩
    (.call (r := ()) ⟨_, .refl, rfl⟩ (.ret 0 attendedOnce)))⟩

theorem called_dowork_again : called attendedOnce .dowork attendedTwice :=
  ⟨0, .call (r := ()) ⟨_, .refl, rfl⟩ (.call ⟨_, .refl, .inl ⟨rfl, rfl⟩⟩
    (.call (r := ()) ⟨_, .refl, rfl⟩ (.ret 0 attendedTwice)))⟩

theorem called_stopRunning : called attendedOnce .stopRunning stopped :=
  ⟨(), .call (r := ()) ⟨_, .refl, rfl⟩ (.call ⟨_, .refl, rfl, rfl⟩ (.call (r := ()) ⟨_, .refl, rfl⟩
    (.call (r := ()) ⟨_, .refl, rfl⟩ (.call (r := ()) ⟨_, .refl, rfl⟩ (.ret () stopped)))))⟩

theorem worker_iff_once : All AtMostOne
    [(attendedOnce, .stopRunning, stopped), (.ctor, .dowork, attendedOnce)] := by
  have hwalk := Walk.cons (.cons .nil called_dowork) called_stopRunning
  refine (worker_iff hwalk).1 (all_cons.mpr ⟨nofun, all_cons.mpr ⟨fun _ => rfl, all_nil⟩⟩)

/-- The second worker is live beside the first. -/
theorem worker_iff_twice : ¬ ∀ (s : Workers) (hist : List (Workers × WorkerCall × Workers)),
    Walk called .ctor hist s → All AtMostOne hist := fun h => by
  have hmost := h _ _ (.cons (.cons .nil called_dowork) called_dowork_again) _ (.head _)
  exact absurd hmost.1 (by decide)

end Bg96.Mqtt
