import BG96Driver.Lib.Threads
import BG96Driver.Lib.Walk
import BG96Driver.Tls.Receiving

/-!
# The time-out of a TLS receive

`recv` starts `timeout_task` and reads the flag that this thread clears, and sets after a wait. The
flag of an earlier call is still set when it is read before the thread has cleared it.

* `Shared`: the flag, where the thread is, and what has been done since the call.
* `TaskStep`: the steps of `timeout_task`. `shared`: the calls of `recv`.
* `recv_spec`: what a call that reports a time-out has done, whatever the order of the steps.
* `timeout_iff`: in every sequence of calls, one that reports a time-out has tried and waited if and
  only if it has not read the flag as set both before its loop and after it.
-/

namespace Bg96.Tls

open Program Transitions Relation

/-! ## The thread of the time-out -/

/-- Where `timeout_task` is: not running, before `set_timeout_ovf(false)`, before the test of its
loop, before `Thread::wait`, or before `set_timeout_ovf(true)`. -/
inductive Task where
  | idle
  | clearing
  | testing
  | waiting
  | setting
  deriving DecidableEq

/-- The flag and the thread, and since the last call of `recv`: the number of attempts, the number
of times that the thread has waited, and the flag as `recv` has read it. -/
structure Shared where
  ovf : Bool
  task : Task
  attempts : Nat
  waits : Nat
  reads : List Bool

/-- A socket that has not received. -/
def Shared.init : Shared := ⟨false, .idle, 0, 0, []⟩

/-- A step of `timeout_task`. -/
inductive TaskStep : Shared → Shared → Prop where
  | clear {s : Shared} (h : s.task = .clearing) :
      TaskStep s { s with ovf := false, task := .testing }
  | test {s : Shared} (h : s.task = .testing) :
      TaskStep s { s with task := if s.ovf then .idle else .waiting }
  | wait {s : Shared} (h : s.task = .waiting) :
      TaskStep s { s with waits := s.waits + 1, task := .setting }
  | set {s : Shared} (h : s.task = .setting) :
      TaskStep s { s with ovf := true, task := .testing }

/-- The calls of `recv`. A thread may fail to start: `recv` does not test it. -/
def shared : Env Shared RecvCall RecvCall.Reply := fun s c r s' =>
  match c, r with
  | .start, _ => ∃ started : Bool, s' =
      { s with task := if started then .clearing else .idle, attempts := 0, waits := 0, reads := [] }
  | .timeoutOvf, r => r = s.ovf ∧ s' = { s with reads := s.reads ++ [s.ovf] }
  | .sslrecv .., _ => s' = { s with attempts := s.attempts + 1 }
  | .terminate, _ => s' = { s with task := .idle }

/-! ## A call of `recv` -/

variable {self : Client} {size n : Nat} {cnt : Int} {buffer : List UInt8} {s s' : Shared}

/-- In the loop, with the last result and the number of tests since the last attempt: the flag was
read as not set, and it is set since the first test only after the thread has waited. -/
structure Polling (cnt : Int) (tests : Nat) (s : Shared) : Prop where
  setting : s.task = .setting → 1 ≤ s.waits
  reads : s.reads = List.replicate (s.attempts + tests) false
  set : 1 ≤ s.attempts + tests → s.ovf = true → 1 ≤ s.waits
  first : s.attempts = 0 → cnt = -1

theorem polling_stable (cnt : Int) (tests : Nat) : Stable TaskStep (Polling cnt tests) := by
  rintro s _ (⟨h⟩ | ⟨h⟩ | ⟨h⟩ | ⟨h⟩) hs
  · exact ⟨nofun, hs.reads, fun _ => nofun, hs.first⟩
  · refine ⟨fun hset => ?_, hs.reads, hs.set, hs.first⟩
    cases hovf : s.ovf <;> simp [hovf] at hset
  · exact ⟨fun _ => Nat.le_add_left 1 _, hs.reads, fun _ _ => Nat.le_add_left 1 _, hs.first⟩
  · exact ⟨nofun, hs.reads, fun _ _ => hs.setting h, hs.first⟩

/-- After the loop, with its last test and its result. -/
structure Left (cnt : Int) (s : Shared) : Prop where
  reads : ∃ ovf, s.reads = List.replicate s.attempts false ++ [ovf] ∧ (ovf = true ∨ 0 ≤ cnt) ∧
    (1 ≤ s.attempts → ovf = true → 1 ≤ s.waits)
  first : s.attempts = 0 → cnt = -1

theorem left_stable (cnt : Int) : Stable TaskStep (Left cnt) := by
  rintro s _ (⟨h⟩ | ⟨h⟩ | ⟨h⟩ | ⟨h⟩) hs
  · exact ⟨hs.reads, hs.first⟩
  · exact ⟨hs.reads, hs.first⟩
  · obtain ⟨ovf, hreads, hend, -⟩ := hs.reads
    exact ⟨⟨ovf, hreads, hend, fun _ _ => Nat.le_add_left 1 _⟩, hs.first⟩
  · exact ⟨hs.reads, hs.first⟩

/-- A thread that is not running takes no step. -/
theorem idle_stable : Stable TaskStep fun s => s.task = .idle := by
  rintro s _ (⟨h⟩ | ⟨h⟩ | ⟨h⟩ | ⟨h⟩) hs <;> cases h.symm.trans hs

theorem recvLoop_spec (hs : Polling cnt 0 s) :
    wp (beside TaskStep shared) True (fun r => Left r.1) (recvLoop self size n cnt buffer) s := by
  induction n generalizing cnt buffer s with
  | zero => trivial
  | succ n ih =>
    refine wp_beside (polling_stable cnt 0) hs ?_
    rintro t ovf _ ht ⟨rfl, rfl⟩
    by_cases hgo : !t.ovf ∧ cnt < 0
    · rw [if_pos hgo]
      have hovf : t.ovf = false := by simpa using hgo.1
      have htested : Polling cnt 1 { t with reads := t.reads ++ [t.ovf] } := by
        refine ⟨ht.setting, ?_, ?_, ht.first⟩
        · simp [ht.reads, hovf, List.replicate_succ']
        · simp [hovf]
      refine wp_beside (polling_stable cnt 1) htested ?_
      rintro u ⟨cnt', data⟩ _ hu rfl
      exact ih ⟨hu.setting, hu.reads, fun _ => hu.set (Nat.le_add_left 1 _), nofun⟩
    · rw [if_neg hgo]
      refine ⟨⟨t.ovf, by rw [ht.reads]; rfl, ?_, ht.set⟩, ht.first⟩
      cases hovf : t.ovf with
      | true => exact .inl rfl
      | false => exact .inr (by simpa [hovf] using hgo)

/-- A wait with an attempt has read the flag as not set, and reports a time-out after the thread has
waited. -/
theorem Left.tried (h : Left cnt s) (htried : s.attempts ≠ 0) (late : List Bool) :
    s.reads ++ late ≠ [true, true] ∧ (cnt < 0 → 1 ≤ s.attempts ∧ 1 ≤ s.waits) := by
  obtain ⟨ovf, hreads, hend, hwaits⟩ := h.reads
  obtain ⟨k, hk⟩ := Nat.exists_eq_succ_of_ne_zero htried
  constructor
  · rw [hreads, hk, List.replicate_succ]
    simp
  · intro hneg
    have hset : ovf = true := hend.resolve_right (by omega)
    exact ⟨by omega, hwaits (by omega) hset⟩

/-- A call that reports a time-out has tried and waited if and only if it has not read the flag as
set before its loop and after it. -/
theorem recv_spec (self : Client) (n size : Nat) (buffer : List UInt8) (s : Shared) :
    wp (beside TaskStep shared) True (fun r s' =>
      (r.1 = nsapiErrorTimeout → 1 ≤ s'.attempts ∧ 1 ≤ s'.waits) ↔ s'.reads ≠ [true, true])
      (recv n self size buffer) s := by
  rintro _ _ ⟨s₀, -, started, rfl⟩
  show wp _ _ _ (recvLoop self size n (-1) buffer >>= _) _
  rw [wp_bind]
  refine wp_mono (recvLoop_spec ⟨?_, rfl, nofun, fun _ => rfl⟩) ?_
  · cases started <;> exact nofun
  rintro ⟨cnt, buffer'⟩ s₁ hleft
  refine wp_beside (left_stable cnt) hleft ?_
  rintro t _ _ ht rfl
  have hidle : Left cnt { t with task := .idle } := ⟨ht.reads, ht.first⟩
  by_cases hone : cnt = -1
  · rw [if_pos hone]
    refine wp_beside (idle_stable.and (left_stable cnt)) ⟨rfl, hidle⟩ ?_
    rintro u _ _ ⟨-, hu⟩ ⟨rfl, rfl⟩
    by_cases htried : u.attempts = 0
    · obtain ⟨ovf, hreads, hend, -⟩ := hu.reads
      obtain rfl : ovf = true := hend.resolve_right (by omega)
      cases u.ovf <;> simp [htried, hreads, hone, nsapiErrorTimeout]
    · obtain ⟨hreads, hwaits⟩ := hu.tried htried [u.ovf]
      exact iff_of_true (fun _ => hwaits (by omega)) hreads
  · rw [if_neg hone]
    have htried : t.attempts ≠ 0 := fun hzero => hone (ht.first hzero)
    obtain ⟨hreads, hwaits⟩ := ht.tried htried []
    rw [List.append_nil] at hreads
    refine iff_of_true (fun hrc => hwaits ?_) hreads
    obtain rfl : cnt = nsapiErrorTimeout := hrc
    decide

/-! ## Every sequence of calls -/

/-- A call of `recv` that returns, in any order with the steps of the thread. -/
def RecvCalled (self : Client) (s : Shared) (r : Int × List UInt8) (s' : Shared) : Prop :=
  ∃ n size buffer, Runs (beside TaskStep shared) (recv n self size buffer) s (some r) s'

/-- A call that reports a time-out has made an attempt, and the thread has waited in it. -/
def TriedAndWaited (_ : Shared) (r : Int × List UInt8) (s' : Shared) : Prop :=
  r.1 = nsapiErrorTimeout → 1 ≤ s'.attempts ∧ 1 ≤ s'.waits

/-- A call has not read the flag as set at its first test and again after its loop. -/
def NotStale (_ : Shared) (_ : Int × List UInt8) (s' : Shared) : Prop := s'.reads ≠ [true, true]

/-- **The time-out.** In every sequence of calls on a socket, a call that reports a time-out has
tried and waited if and only if it has not read the flag as set before its loop and after it. -/
theorem timeout_iff {hist : List (Shared × (Int × List UInt8) × Shared)}
    (h : Walk (RecvCalled self) .init hist s) :
    ∀ t ∈ hist, TriedAndWaited t.1 t.2.1 t.2.2 ↔ NotStale t.1 t.2.1 t.2.2 := by
  have hall : All (fun s r s' => TriedAndWaited s r s' ↔ NotStale s r s') hist := by
    refine (h.forall_steps (I := fun _ => True) trivial fun s r s' _ hcall => ?_).2
    obtain ⟨n, size, buffer, hrun⟩ := hcall
    exact ⟨trivial, hrun.ends (recv_spec self n size buffer s)⟩
  exact hall

/-- A call with one attempt, which fails and takes longer than the time-out. -/
def slowCall : List RecvExchange :=
  [⟨.start, ()⟩, ⟨.timeoutOvf, false⟩, ⟨.sslrecv 0 4, (-1, [])⟩, ⟨.timeoutOvf, true⟩, ⟨.terminate, ()⟩,
    ⟨.timeoutOvf, true⟩]

/-- A call without an attempt. -/
def staleCall : List RecvExchange :=
  [⟨.start, ()⟩, ⟨.timeoutOvf, true⟩, ⟨.terminate, ()⟩, ⟨.timeoutOvf, true⟩]

/-- After the slow call, and after the other one. -/
def timedOut : Shared := ⟨true, .idle, 1, 1, [false, true, true]⟩

def neverTried : Shared := ⟨true, .idle, 0, 0, [true, true]⟩

theorem recvCalled_slow : RecvCalled .ctor .init (nsapiErrorTimeout, []) timedOut := by
  refine ⟨2, 4, [], runs_iff.mpr ⟨slowCall, traces_iff_replay.mpr rfl, ?_⟩⟩
  have htask {s : Shared} (hs : s.task = .clearing) :
      ReflTransGen TaskStep s { s with ovf := true, task := .testing, waits := s.waits + 1 } :=
    .tail (.tail (.tail (.single (.clear hs)) (.test rfl)) (.wait rfl)) (.set rfl)
  exact ⟨_, ⟨_, .refl, true, rfl⟩, _, ⟨_, .refl, rfl, rfl⟩, _, ⟨_, htask rfl, rfl⟩,
    _, ⟨_, .refl, rfl, rfl⟩, _, ⟨_, .refl, rfl⟩, _, ⟨_, .refl, rfl, rfl⟩, rfl⟩

/-- The thread has not yet cleared the flag of the slow call. -/
theorem recvCalled_stale : RecvCalled .ctor timedOut (nsapiErrorTimeout, []) neverTried :=
  ⟨1, 4, [], runs_iff.mpr ⟨staleCall, traces_iff_replay.mpr rfl, _, ⟨_, .refl, true, rfl⟩,
    _, ⟨_, .refl, rfl, rfl⟩, _, ⟨_, .refl, rfl⟩, _, ⟨_, .refl, rfl, rfl⟩, rfl⟩⟩

theorem timeout_iff_slow :
    (TriedAndWaited .init (nsapiErrorTimeout, []) timedOut ↔
      NotStale .init (nsapiErrorTimeout, []) timedOut) ∧
    (TriedAndWaited timedOut (nsapiErrorTimeout, []) neverTried ↔
      NotStale timedOut (nsapiErrorTimeout, []) neverTried) := by
  have h := timeout_iff (.cons (.cons .nil recvCalled_slow) recvCalled_stale)
  exact ⟨h _ (.tail _ (.head _)), h _ (.head _)⟩

/-- The second call reports a time-out at once. -/
theorem timeout_not_tried :
    ¬ ∀ (self : Client) (s : Shared) (hist : List (Shared × (Int × List UInt8) × Shared)),
      Walk (RecvCalled self) .init hist s → ∀ t ∈ hist, TriedAndWaited t.1 t.2.1 t.2.2 := by
  intro h
  have htried := h .ctor neverTried _ (.cons (.cons .nil recvCalled_slow) recvCalled_stale) _
    (.head _) rfl
  exact absurd htried.1 (by decide)

end Bg96.Tls
