import BG96Driver.Lib.Walk
import BG96Driver.Network.Interface

/-!
# The connection status of the interface

`set_credentials` compares the result of `BG96::connect` with `true`. The result is
`NSAPI_ERROR_OK` or a negative code, so the status is always `NSAPI_ERROR_IS_CONNECTED`, and
`connect` returns it.

* `Session`, `Turn`: the interface with the calls of `BG96` that it has made and their results.
* `attached`: the module is attached to the network, as these results tell.
* `FaithfulRequest`: a call of the interface keeps the status, returns and acts as the network
  tells.
* `status_faithful_iff`: all the calls of a run are, if and only if the module never starts.
-/

namespace Bg96.Network

open Program Transitions

/-! ## What the calls tell -/

/-- A call and its result. -/
abbrev Event := (c : Call) × c.Reply

/-- The results that the calls can have: `BG96::connect` gives `NSAPI_ERROR_OK` or an error code. -/
def Documented : (c : Call) → c.Reply → Prop
  | .connect .., rc => rc ≤ 0
  | _, _ => True

/-- The calls are recorded with their results, the newest first. -/
def recorded : Env (List Event) Call Call.Reply := fun log c r log' =>
  log' = ⟨c, r⟩ :: log ∧ Documented c r

/-- The last `BG96::connect` succeeded, and no `BG96::disconnect` came after it. -/
def attached : List Event → Bool
  | [] => false
  | ⟨.connect .., rc⟩ :: _ => decide (rc = nsapiErrorOk)
  | ⟨.disconnect, _⟩ :: _ => false
  | ⟨_, _⟩ :: log => attached log

/-- A `BG96::startup` that succeeded. -/
def Event.started : Event → Bool
  | ⟨.startup, ok⟩ => ok
  | _ => false

/-- A `BG96::connect` that succeeded. -/
def Event.connected : Event → Bool
  | ⟨.connect .., rc⟩ => decide (rc = nsapiErrorOk)
  | _ => false

/-- A call that neither attaches the module nor detaches it. -/
def Event.isLocal : Event → Bool
  | ⟨.connect .., _⟩ | ⟨.disconnect, _⟩ => false
  | _ => true

variable {log log' new : List Event} {e : Event}

theorem attached_append (h : ∀ e ∈ new, e.isLocal = true) :
    attached (new ++ log) = attached log := by
  induction new with
  | nil => rfl
  | cons e new ih =>
    obtain ⟨he, hnew⟩ := List.forall_mem_cons.mp h
    obtain ⟨c, r⟩ := e
    cases c with
    | connect | disconnect => cases he
    | _ => exact ih hnew

theorem connected_of_isLocal (h : e.isLocal = true) : e.connected = false := by
  obtain ⟨c, r⟩ := e
  cases c with
  | connect => cases h
  | _ => rfl

/-! ## The calls of the interface -/

/-- The interface, and the calls that it has made. -/
structure Session where
  self : BG96Interface
  log : List Event

/-- A call of the interface, with its result. -/
inductive Request where
  | connect (apn : String) (username password : Option String) (ret : Int)
  | disconnect (ret : Int)

/-- A call. The loop of `connect` has any number of turns. -/
inductive Turned : Session → Request → Session → Prop where
  | connect {s s' : Session} {n : Nat} {apn : String} {username password : Option String}
    {ret : Int} (h : Runs recorded (Network.connect n s.self apn username password) s.log
      (some (s'.self, ret)) s'.log) : Turned s (.connect apn username password ret) s'
  | disconnect {s s' : Session} {ret : Int}
    (h : Runs recorded (Network.disconnect s.self) s.log (some (s'.self, ret)) s'.log) :
    Turned s (.disconnect ret) s'

/-- The calls that a call of the interface has made. -/
def Session.added (s s' : Session) : List Event := s'.log.take (s'.log.length - s.log.length)

/-- The calls disconnect before anything else, and then start the module before they attach it. -/
def Reattaches (new : List Event) : Prop :=
  ∃ r rest, (new.reverse.filter fun e => !e.isLocal || e.started) = ⟨.disconnect, r⟩ :: rest ∧
    ∀ pre apn username password rc post,
      rest = pre ++ ⟨.connect apn username password, rc⟩ :: post → ∃ e ∈ pre, e.started = true

/-- A call of the interface follows the network: the status after it says whether the module is
attached; `connect` returns `NSAPI_ERROR_OK` if and only if its `BG96::connect` succeeded; when the
status is connected, it disconnects and starts the module before it attaches it. -/
structure FaithfulRequest (s : Session) (l : Request) (s' : Session) : Prop where
  status : s'.self.gIsInitialized = nsapiErrorIsConnected ↔ attached s'.log = true
  result : ∀ apn username password ret, l = .connect apn username password ret →
    (ret = nsapiErrorOk ↔ ∃ e ∈ s.added s', e.connected = true)
  reattach : ∀ apn username password ret, l = .connect apn username password ret →
    s.self.gIsInitialized = nsapiErrorIsConnected → Reattaches (s.added s')

/-- The module does not start. -/
def Unstarted (s : Session) (_ : Request) (s' : Session) : Prop :=
  ∀ e ∈ s.added s', e.started = false

/-! ## What the functions do -/

variable {self : BG96Interface}

theorem startupLoop_spec (n : Nat) (ok : Bool) (log : List Event) :
    wp recorded True (fun ok' log' => ∃ new, log' = new ++ log ∧ (∀ e ∈ new, e.isLocal = true) ∧
      (ok' = true ↔ ok = true ∨ ∃ e ∈ new, e.started = true)) (startupLoop ok n) log := by
  induction n generalizing ok log with
  | zero => trivial
  | succ n ih =>
    rintro ms _ ⟨rfl, -⟩
    dsimp only
    split
    · rename_i hloop
      have hok : ok = false := by simpa using hloop.2
      rintro up _ ⟨rfl, -⟩
      refine wp_mono (ih up _) ?_
      rintro ok' _ ⟨new, rfl, hlocal, hok'⟩
      refine ⟨new ++ [⟨.startup, up⟩, ⟨.readMs, ms⟩], by simp, ?_, ?_⟩
      · simpa [or_imp, forall_and, Event.isLocal] using hlocal
      · rw [hok']
        simp [hok, Event.started, or_and_right, exists_or, or_comm]
    · exact ⟨[⟨.readMs, ms⟩], rfl, by simp [Event.isLocal], by simp [Event.started]⟩

theorem ne_one_of_nonpos {rc : Int} (h : rc ≤ 0) : rc ≠ 1 := by omega

/-- `set_credentials` takes every result of `BG96::connect` for a success. -/
theorem setCredentials_spec (self : BG96Interface) (apn : String)
    (username password : Option String) (log : List Event) :
    wp recorded True (fun r log' => ∃ rc, log' = ⟨.connect apn username password, rc⟩ :: log ∧
      r = ({ self with gIsInitialized := nsapiErrorIsConnected }, nsapiErrorIsConnected))
      (setCredentials self apn username password) log := by
  rintro rc _ ⟨rfl, hrc⟩
  have hne : (rc : Int) ≠ 1 := ne_one_of_nonpos hrc
  refine ⟨rc, rfl, ?_⟩
  rw [if_neg hne]

/-- What the part of `connect` after `disconnect` does: nothing if the module does not start, and
else it takes every result of `BG96::connect` for a success. -/
inductive Attaches (self : BG96Interface) (ok : Bool) (apn : String)
    (username password : Option String) (new : List Event) : BG96Interface × Int → Prop where
  | unstarted (self' : BG96Interface) (hok : ok = false) (hnew : ∀ e ∈ new, e.started = false)
    (hlocal : ∀ e ∈ new, e.isLocal = true) (hself : self'.gIsInitialized = self.gIsInitialized) :
    Attaches self ok apn username password new (self', nsapiErrorDeviceError)
  | started (self' : BG96Interface) (rc : Int) (new' : List Event)
    (hok : ok = true ∨ ∃ e ∈ new', e.started = true)
    (hnew : new = ⟨.connect apn username password, rc⟩ :: new')
    (hself : self'.gIsInitialized = nsapiErrorIsConnected) :
    Attaches self ok apn username password new (self', nsapiErrorIsConnected)

theorem attach_spec (n : Nat) (self : BG96Interface) (ok : Bool) (apn : String)
    (username password : Option String) (log : List Event) :
    wp recorded True (fun r log' => ∃ new, log' = new ++ log ∧
      Attaches self ok apn username password new r) (attach n self ok apn username password) log := by
  show wp recorded True _ (startupLoop ok n >>= _) log
  rw [wp_bind]
  refine wp_mono (startupLoop_spec n ok log) ?_
  rintro ok' _ ⟨new, rfl, hlocal, hok'⟩
  cases ok' with
  | false =>
    have hno : ¬ (ok = true ∨ ∃ e ∈ new, e.started = true) := hok'.not.mp (by simp)
    obtain ⟨hok, hnew⟩ := not_or.mp hno
    refine ⟨new, rfl, .unstarted _ (by simpa using hok) (fun e he => ?_) hlocal rfl⟩
    simpa using fun hs => hnew ⟨e, he, hs⟩
  | true =>
    have hstart := hok'.mp rfl
    -- the thread of the event queue is started if there is none
    by_cases hid : self.gBg96QueueId = -1
    · simp only [hid, and_self, if_true]
      rintro id _ ⟨rfl, -⟩
      refine wp_mono (setCredentials_spec _ apn username password _) ?_
      rintro _ _ ⟨rc, rfl, rfl⟩
      refine ⟨_ :: ⟨.start, id⟩ :: new, rfl, .started _ rc _ ?_ rfl rfl⟩
      exact hstart.imp_right fun ⟨e, he, hs⟩ => ⟨e, List.mem_cons_of_mem _ he, hs⟩
    · simp only [hid, and_false, if_false, if_true]
      refine wp_mono (setCredentials_spec _ apn username password _) ?_
      rintro _ _ ⟨rc, rfl, rfl⟩
      exact ⟨_ :: new, rfl, .started _ rc _ hstart rfl rfl⟩

theorem disconnect_spec (self : BG96Interface) (log : List Event) :
    wp recorded True (fun r log' => ∃ ok,
      log' = ⟨.disconnect, ok⟩ :: ⟨.cancel self.gBg96QueueId, ()⟩ :: log ∧
      r.1.gIsInitialized = nsapiErrorNoConnection) (disconnect self) log := by
  rintro _ _ ⟨rfl, -⟩ ok _ ⟨rfl, -⟩
  exact ⟨ok, rfl, rfl⟩

/-! ## The calls of the parser -/

section Parser

variable {S : Type} {E : Env S Modem.Call Modem.Call.Reply}

theorem wp_any {α : Type} (p : Modem.At α) (t : S) : wp E True (fun _ _ => True) p t :=
  wp_of_forall trivial (fun _ _ => trivial) p t

theorem connectPdp_nonpos (n : Nat) (bg96 : Modem.BG96) (id : Int) (t : S) :
    wp E True (fun rc _ => rc ≤ 0) (Modem.connectPdp n bg96 id) t := by
  intro _ t _
  show wp E True _ ((_ >>= _) >>= _) t
  rw [wp_bind, wp_bind]
  refine wp_mono (wp_any _ _) ?_
  rintro done t - _ t' - _ t'' -
  cases done
  · exact Int.le_of_lt nsapiErrorDeviceError_neg
  · exact Int.le_refl 0

/-- `BG96::connect` gives `NSAPI_ERROR_OK` or an error code. -/
theorem connect_nonpos (n : Nat) (bg96 : Modem.BG96) (apn username password : String) (t : S) :
    wp E True (fun rc _ => rc ≤ 0) (Modem.connect n bg96 apn username password) t := by
  intro _ t _ _ t' _
  show wp E True _ (Modem.register >>= _) t'
  rw [wp_bind]
  refine wp_mono (wp_any _ _) ?_
  rintro registered t -
  cases registered with
  | false => exact fun _ t _ => connectPdp_nonpos n bg96 bg96.contextID t
  | true =>
    show wp E True _ (Modem.checkApn bg96 apn username password >>= _) t
    rw [wp_bind]
    refine wp_mono (wp_any _ _) ?_
    rintro stored t -
    cases stored with
    | false => exact Int.le_of_lt nsapiErrorDeviceError_neg
    | true => exact fun _ t _ => connectPdp_nonpos n bg96 bg96.contextID t

/-- What the calls are for `BG96` gives documented results. -/
theorem handler_documented (n : Nat) (started : Int) (parts : Parts) (c : Call) (t : S) :
    wp E True (fun r _ => Documented c r.1) (handler n started parts c) t := by
  cases c with
  | connect apn username password =>
    show wp E True _ (Modem.connect n parts.bg96 apn _ _ >>= _) t
    rw [wp_bind]
    exact connect_nonpos n parts.bg96 apn _ _ t
  | _ => exact wp_of_forall trivial (fun _ _ => trivial) _ t

end Parser

/-- The calls give documented results. -/
def documented (S : Type) : Env S Call Call.Reply := fun _ c r _ => Documented c r

theorem attach_ne_ok {S : Type} (n : Nat) (self : BG96Interface) (ok : Bool) (apn : String)
    (username password : Option String) (t : S) :
    wp (documented S) True (fun r _ => r.2 ≠ nsapiErrorOk) (attach n self ok apn username password)
      t := by
  have hset (self : BG96Interface) (t : S) : wp (documented S) True (fun r _ => r.2 ≠ nsapiErrorOk)
      (setCredentials self apn username password) t := by
    intro rc t' hrc
    have hne : (rc : Int) ≠ 1 := ne_one_of_nonpos hrc
    simp [hne, nsapiErrorIsConnected, nsapiErrorOk]
  show wp _ _ _ (startupLoop ok n >>= _) t
  rw [wp_bind]
  refine wp_mono (wp_of_forall (Q := fun _ _ => True) trivial (fun _ _ => trivial) _ _) ?_
  rintro ok' t -
  cases ok' with
  | false => exact Int.ne_of_lt nsapiErrorDeviceError_neg
  | true =>
    by_cases hid : self.gBg96QueueId = -1
    · simp only [hid, and_self, if_true]
      exact fun _ t _ => hset _ t
    · simp only [hid, and_false, if_false, if_true]
      exact hset self t

/-- **`connect` never succeeds.** Whatever the parser and the modem do, `connect` does not return
`NSAPI_ERROR_OK`. -/
theorem connect_ne_ok {S : Type} {E : Env S Modem.Call Modem.Call.Reply} (n m : Nat)
    (started : Int) (self : BG96Interface) (apn : String) (username password : Option String)
    (parts : Parts) (t : S) :
    wp E True (fun r _ => r.1.2 ≠ nsapiErrorOk)
      ((connect n self apn username password).interp (handler m started) parts) t := by
  refine wp_interp (E := documented (Parts × S))
    (Q := fun (r : BG96Interface × Int) _ => r.2 ≠ nsapiErrorOk)
    (fun x t c => handler_documented m started x c t) ?_
  unfold connect
  split
  · show wp _ _ _ (disconnect self >>= _) _
    rw [wp_bind]
    refine wp_mono (wp_of_forall (Q := fun _ _ => True) trivial (fun _ _ => trivial) _ _) ?_
    exact fun r t _ => attach_ne_ok n r.1 _ apn username password t
  · exact attach_ne_ok n self false apn username password _

/-! ## Runs -/

/-- The status is not connected, and the module is not attached. -/
structure Detached (s : Session) : Prop where
  status : s.self.gIsInitialized = nsapiErrorNoConnection
  log : attached s.log = false

variable {s s' : Session} {l : Request}

theorem added_eq (h : s'.log = new ++ s.log) : s.added s' = new := by
  rw [Session.added, h, List.length_append, Nat.add_sub_cancel, List.take_left]

theorem noConnection_ne : nsapiErrorNoConnection ≠ nsapiErrorIsConnected := by decide

/-- **Step.** When the module is detached, a call of the interface follows the network if and only
if the module does not start, and it then stays detached. -/
theorem Turned.faithful_iff (h : Turned s l s') (hs : Detached s) :
    (FaithfulRequest s l s' ↔ Unstarted s l s') ∧ (Unstarted s l s' → Detached s') := by
  cases h with
  | @connect _ n apn username password ret h =>
    have hwp : wp recorded True (fun r log' => ∃ new, log' = new ++ s.log ∧
        Attaches s.self false apn username password new r)
        (Network.connect n s.self apn username password) s.log := by
      have hne : s.self.gIsInitialized ≠ nsapiErrorIsConnected := hs.status ▸ noConnection_ne
      rw [Network.connect, if_neg hne]
      exact attach_spec n s.self false apn username password s.log
    obtain ⟨new, hlog, hatt⟩ := h.ends hwp
    have hadded := added_eq hlog
    cases hatt with
    | unstarted self' hok hnew hlocal hself =>
      have hdetached : Detached s' :=
        ⟨hself.trans hs.status, by rw [hlog, attached_append hlocal, hs.log]⟩
      refine ⟨iff_of_true ⟨?_, ?_, ?_⟩ ?_, fun _ => hdetached⟩
      · exact iff_of_false (hdetached.status ▸ noConnection_ne) (by simp [hdetached.log])
      · rintro _ _ _ _ ⟨⟩
        refine iff_of_false (by decide) fun ⟨e, he, hc⟩ => ?_
        rw [hadded] at he
        simp [connected_of_isLocal (hlocal e he)] at hc
      · exact fun _ _ _ _ _ hconn => absurd (hs.status ▸ hconn) noConnection_ne
      · rw [Unstarted, hadded]
        exact hnew
    | started self' rc new' hok hnew hself =>
      obtain ⟨e, he, hstart⟩ := hok.resolve_left (by simp)
      have hmem : e ∈ s.added s' := by
        rw [hadded, hnew]
        exact List.mem_cons_of_mem _ he
      have hstarted : ¬ Unstarted s (.connect apn username password nsapiErrorIsConnected) s' :=
        fun hun => absurd hstart (by simp [hun e hmem])
      refine ⟨iff_of_false (fun hf => ?_) hstarted, fun hun => absurd hun hstarted⟩
      by_cases hrc : rc = nsapiErrorOk
      · -- the attachment succeeded, and `connect` returns a code for it that is not a success
        have hmem : ∃ e ∈ s.added s', e.connected = true :=
          ⟨_, by rw [hadded, hnew]; exact List.mem_cons_self, by simp [Event.connected, hrc]⟩
        exact absurd ((hf.result _ _ _ _ rfl).mpr hmem) (by decide)
      · -- the attachment failed, and the status is connected
        have hatt := hf.status.mp hself
        rw [hlog, hnew] at hatt
        simp [attached, hrc] at hatt
  | disconnect h =>
    obtain ⟨ok, hlog, hself⟩ := h.ends (disconnect_spec s.self s.log)
    have hdetached : Detached s' := ⟨hself, by rw [hlog]; rfl⟩
    have hadded : s.added s' = [⟨.disconnect, ok⟩, ⟨.cancel s.self.gBg96QueueId, ()⟩] :=
      added_eq hlog
    refine ⟨iff_of_true ⟨?_, nofun, nofun⟩ ?_, fun _ => hdetached⟩
    · exact iff_of_false (hdetached.status ▸ noConnection_ne) (by simp [hdetached.log])
    · rw [Unstarted, hadded]
      simp [Event.started]

/-- The constructor's state. -/
def Session.init (powerOffAllowed : Bool) : Session := ⟨.ctor powerOffAllowed, []⟩

/-- **The connection status.** In any sequence of calls of `connect` and `disconnect` after the
constructor, with any results of `BG96`, all the calls follow the network if and only if the module
starts in none of them. -/
theorem status_faithful_iff {powerOffAllowed : Bool} {hist : List (Session × Request × Session)}
    (h : Walk Turned (.init powerOffAllowed) hist s) :
    All FaithfulRequest hist ↔ All Unstarted hist :=
  h.exact (I := Detached) ⟨rfl, rfl⟩ (fun _ _ _ hs ht => (ht.faithful_iff hs).1)
    fun _ _ _ hs ht => (ht.faithful_iff hs).2

/-- After a `connect` for which the time is up before the first start. -/
def late : Session := ⟨.ctor true, [⟨.readMs, (30000 : Int)⟩]⟩

theorem turned_late : Turned (.init true) (.connect "apn" none none nsapiErrorDeviceError) late :=
  .connect (n := 1) (.call (r := (30000 : Int)) ⟨rfl, trivial⟩ (.ret _ _))

theorem status_faithful_iff_late :
    All FaithfulRequest [(.init true, .connect "apn" none none nsapiErrorDeviceError, late)] :=
  (status_faithful_iff (.cons .nil turned_late)).mpr
    (by simp [All, Unstarted, Session.added, Session.init, late, Event.started])

/-- After a `connect` in which everything succeeds. -/
def success : Session where
  self := ⟨nsapiErrorIsConnected, 0, true, 0⟩
  log := [⟨.connect "apn" none none, (0 : Int)⟩, ⟨.start, (0 : Int)⟩, ⟨.readMs, (100 : Int)⟩,
    ⟨.startup, true⟩, ⟨.readMs, (0 : Int)⟩]

theorem turned_success :
    Turned (.init true) (.connect "apn" none none nsapiErrorIsConnected) success := by
  refine .connect (n := 2) ?_
  refine .call (r := (0 : Int)) ⟨rfl, trivial⟩ ?_
  refine .call (r := true) ⟨rfl, trivial⟩ ?_
  refine .call (r := (100 : Int)) ⟨rfl, trivial⟩ ?_
  refine .call (r := (0 : Int)) ⟨rfl, trivial⟩ ?_
  have hrc : Documented (.connect "apn" none none) (0 : Int) := Int.le_refl 0
  exact .call ⟨rfl, hrc⟩ (.ret _ _)

/-- It does not return `NSAPI_ERROR_OK`. -/
theorem status_faithful_iff_success :
    ¬ ∀ powerOffAllowed hist s, Walk Turned (.init powerOffAllowed) hist s →
      All FaithfulRequest hist := by
  intro h
  have hf := h _ _ _ (.cons .nil turned_success) _ List.mem_cons_self
  have hmem : (⟨.connect "apn" none none, (0 : Int)⟩ : Event) ∈ (Session.init true).added success :=
    List.mem_cons_self
  exact absurd ((hf.result _ _ _ _ rfl).mpr ⟨_, hmem, rfl⟩) (by decide)

end Bg96.Network
