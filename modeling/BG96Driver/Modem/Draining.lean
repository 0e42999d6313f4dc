import BG96Driver.Modem.Receiving
import Mathlib.Data.Finset.Card
import Mathlib.Data.Nat.Find

/-!
# The end of `BG96::open`

`open` reads the socket until `recv` gives 0. An error is not 0, so the loop goes on as long as the
module does not answer.

* `Drain`: a round of the loop.
* `Announced`: the module has announced a number of bytes, and has sent them.
* `drain_iff`, `open_iff`: when the loop stops.
* `Buffered`: the socket has a number of chunks at most.
* `open_drains_iff`: it stops in time, and at an error, if and only if the module answers.
-/

namespace Bg96.Modem

open Program

/-- A call of `recv` in the loop of `open`. -/
abbrev Drain (id : Int) := Round (recv id 20)

variable {id n : Int} {l said : List Exchange} {stored : List UInt8} {rounds : Nat → Drain id}

/-- What the call returns. -/
def Drain.cnt (r : Drain id) : Int := r.result.1

/-- The module has announced this number of bytes, and `OK` has come after them. -/
def Announced (said : List Exchange) (n : Int) : Prop :=
  ∃ vs, ⟨.recv qirdHeader, some vs⟩ ∈ said ∧ intAt vs 0 = n ∧
    (0 < n → ∃ ok, ⟨.recv okFormat, some ok⟩ ∈ said)

/-- What `recv` returns was announced. -/
theorem ModemRecvCase.announced_iff {cnt : Nat} {k : Int} (h : ModemRecvCase id cnt said n stored)
    (hk : 0 ≤ k) : n = k ↔ Announced said k := by
  obtain ⟨hurc, hokHeader⟩ := qirdHeader_ne id
  have hok := okFormat_ne id
  have herr := nsapiErrorDeviceError_neg
  cases h with
  | unsent urc | unanswered urc =>
    refine iff_of_false (by omega) ?_
    simp [Announced, hurc]
  | empty urc vs hvs =>
    simp only [Announced, List.mem_cons, Sigma.mk.injEq, Call.recv.injEq, hurc, false_and,
      reduceCtorEq, heq_eq_eq, Option.some.injEq, true_and, List.not_mem_nil, or_false, false_or,
      exists_eq_left, hok, hokHeader.symm, exists_false, imp_false, iff_self_and]
    omega
  | data urc vs hvs c r ok =>
    constructor
    · rintro rfl
      refine ⟨vs, by simp, ?_⟩
      cases ok with
      | none => exact absurd herr (Int.not_lt.mpr hk)
      | some ok => exact ⟨rfl, fun _ => ⟨ok, by simp⟩⟩
    · rintro ⟨vs', hvs', rfl, hack⟩
      obtain rfl : vs' = vs := by simpa [hurc, hokHeader] using hvs'
      obtain ⟨ok', hok'⟩ := hack hvs
      obtain rfl : ok = some ok' := by simpa [hok, hokHeader.symm, eq_comm] using hok'
      rfl

theorem recv_speaks (id : Int) : Speaks (recv id 20) := speaks_call

theorem drain_eq (n : Nat) :
    drain id n = (recv id 20).until (fun r => decide (r.1 = 0)) n >>= fun _ => .ret () := by
  induction n with
  | zero => rfl
  | succ n ih =>
    rw [drain, Prog.until, Prog.bind_assoc]
    refine congrArg (Prog.bind (recv id 20)) (funext fun r => ?_)
    by_cases hcnt : r.1 = 0
    · simp [hcnt]
    · simp [hcnt, ih]

/-- **Loop.** It stops after the first round that gives 0. -/
theorem drain_iff (k : Nat) :
    (∃ n, Traces (drain id n) (saidIn rounds (k + 1)) (some ())) ↔
      (∀ j < k, (rounds j).cnt ≠ 0) ∧ (rounds k).cnt = 0 := by
  simp only [drain_eq, traces_map_some]
  constructor
  · rintro ⟨n, a, h, -⟩
    obtain ⟨hnot, hdone, -⟩ := (traces_until _ (recv_speaks id) k).mp ⟨n, h⟩
    exact ⟨fun j hj => of_decide_eq_false (hnot j hj), of_decide_eq_true hdone⟩
  · rintro ⟨hne, hzero⟩
    have hstops : ∃ n, Traces ((recv id 20).until (fun r => decide (r.1 = 0)) n)
        (saidIn rounds (k + 1)) (some (rounds k).result) :=
      (traces_until _ (recv_speaks id) k).mpr
        ⟨fun j hj => decide_eq_false (hne j hj), decide_eq_true hzero, rfl⟩
    obtain ⟨n, h⟩ := hstops
    exact ⟨n, _, h, trivial⟩

/-- The module answers the query, and has bytes. -/
def Brings (said : List Exchange) : Prop := ∃ n, 0 < n ∧ Announced said n

/-- The module answers the query. -/
def IsAnswered (said : List Exchange) : Prop := ∃ n, 0 ≤ n ∧ Announced said n

theorem Drain.brings_iff (r : Drain id) : 0 < r.cnt ↔ Brings (spoken r.trace) := by
  have h : ModemRecvCase id 20 _ r.cnt _ := traces_recv r.made
  constructor
  · exact fun hpos => ⟨r.cnt, hpos, (h.announced_iff (Int.le_of_lt hpos)).mp rfl⟩
  · rintro ⟨n, hpos, hn⟩
    rwa [(h.announced_iff (Int.le_of_lt hpos)).mpr hn]

theorem Drain.answers_iff (r : Drain id) : 0 ≤ r.cnt ↔ IsAnswered (spoken r.trace) := by
  have h : ModemRecvCase id 20 _ r.cnt _ := traces_recv r.made
  constructor
  · exact fun hpos => ⟨r.cnt, hpos, (h.announced_iff hpos).mp rfl⟩
  · rintro ⟨n, hpos, hn⟩
    rwa [(h.announced_iff hpos).mpr hn]

/-- The socket has buffered this many chunks at most. -/
def Buffered (rounds : Nat → Drain id) (chunks : Nat) : Prop :=
  ∀ s : Finset Nat, (∀ j ∈ s, Brings (spoken (rounds j).trace)) → s.card ≤ chunks

/-- A round without bytes comes, at most after all the chunks. -/
theorem Buffered.exists_first {chunks : Nat} (h : Buffered rounds chunks) :
    ∃ k ≤ chunks, (∀ j < k, 0 < (rounds j).cnt) ∧ (rounds k).cnt ≤ 0 := by
  have hex : ∃ k, (rounds k).cnt ≤ 0 := by
    by_contra hall
    have hcard := h (Finset.range (chunks + 1)) fun j _ =>
      (rounds j).brings_iff.mp (Int.not_le.mp fun hle => hall ⟨j, hle⟩)
    rw [Finset.card_range] at hcard
    omega
  have hmin (j : Nat) (hj : j < Nat.find hex) : 0 < (rounds j).cnt :=
    Int.not_le.mp (Nat.find_min hex hj)
  refine ⟨Nat.find hex, ?_, hmin, Nat.find_spec hex⟩
  have hcard := h (Finset.range (Nat.find hex)) fun j hj =>
    (rounds j).brings_iff.mp (hmin j (Finset.mem_range.mp hj))
  rwa [Finset.card_range] at hcard

section Open

variable {self : BG96} {type : Char} {addr : String} {port : Int}

/-- `open` returns after the first round that gives 0. -/
theorem open_iff (hopen : Traces (openLink self type id addr port) l (some true)) (k : Nat) :
    (∃ n, Traces («open» n self type id addr port) (l ++ saidIn rounds (k + 1)) (some true)) ↔
      (∀ j < k, (rounds j).cnt ≠ 0) ∧ (rounds k).cnt = 0 := by
  rw [← drain_iff]
  refine exists_congr fun n => ?_
  rw [«open», hopen.bind_iff]
  exact traces_map_some.trans ⟨fun ⟨_, h, _⟩ => h, fun h => ⟨(), h, rfl⟩⟩

/-- **End of `open`.** The socket is open. The loop after it stops after at most one round for each
chunk and one more, and goes on after no error, if and only if the module answers the queries as
long as they bring bytes. -/
theorem open_drains_iff {chunks : Nat}
    (hopen : Traces (openLink self type id addr port) l (some true))
    (hbuffered : Buffered rounds chunks) :
    (∃ k ≤ chunks, (∀ j < k, 0 ≤ (rounds j).cnt) ∧
      ∃ n, Traces («open» n self type id addr port) (l ++ saidIn rounds (k + 1)) (some true)) ↔
    ∀ j, (∀ i < j, Brings (spoken (rounds i).trace)) → IsAnswered (spoken (rounds j).trace) := by
  constructor
  · rintro ⟨k, -, herr, hstops⟩ j hj
    obtain ⟨-, hzero⟩ := (open_iff hopen k).mp hstops
    refine (rounds j).answers_iff.mp ?_
    rcases Nat.lt_trichotomy j k with hlt | rfl | hlt
    · exact herr j hlt
    · exact Int.le_of_eq hzero.symm
    · have hpos := (rounds k).brings_iff.mpr (hj k hlt)
      omega
  · intro hans
    obtain ⟨k, hk, hpos, hle⟩ := hbuffered.exists_first
    have hge := (rounds k).answers_iff.mpr (hans k fun i hi => (rounds i).brings_iff.mp (hpos i hi))
    have hne (j : Nat) (hj : j < k) : (rounds j).cnt ≠ 0 := Int.ne_of_gt (hpos j hj)
    exact ⟨k, hk, fun j hj => Int.le_of_lt (hpos j hj),
      (open_iff hopen k).mpr ⟨hne, Int.le_antisymm hle hge⟩⟩

/-- The module opens socket 1. -/
def openedTrace : List Exchange :=
  [⟨.lock, ()⟩, ⟨.setTimeout bg96Timeout150s, ()⟩,
    ⟨.send (qiopen .ctor 't' 1 "10.0.0.1" 80), true⟩, ⟨.recv okFormat, some []⟩,
    ⟨.recv ⟨"+QIOPEN: %d,%%d", [.int 1]⟩, some [.int 0]⟩, ⟨.setTimeout atTimeout, ()⟩,
    ⟨.unlock, ()⟩]

theorem openedTrace_traces :
    Traces (openLink .ctor 't' 1 "10.0.0.1" 80) openedTrace (some true) := traces_iff_replay.mpr rfl

/-- A round whose query gets this answer to its header. -/
def roundTrace (answer : Option (List Value)) : List Exchange :=
  [⟨.lock, ()⟩, ⟨.setTimeout 1000, ()⟩, ⟨.recv (qiurcRecv 1), none⟩, ⟨.setTimeout atTimeout, ()⟩,
    ⟨.unlock, ()⟩, ⟨.lock, ()⟩, ⟨.send (qird 1 20), true⟩, ⟨.recv qirdHeader, answer⟩,
    ⟨.unlock, ()⟩]

def emptyRound : Drain 1 where
  trace := roundTrace (some [.int 0])
  result := (0, [])
  made := traces_iff_replay.mpr rfl

def silentRound : Drain 1 where
  trace := roundTrace none
  result := (nsapiErrorDeviceError, [])
  made := traces_iff_replay.mpr rfl

/-- Rounds that bring nothing. -/
theorem buffered_zero (h : ∀ j, (rounds j).cnt ≤ 0) : Buffered rounds 0 := by
  intro s hs
  rw [Nat.le_zero, Finset.card_eq_zero]
  refine Finset.eq_empty_of_forall_notMem fun j hj => ?_
  have hpos := (rounds j).brings_iff.mpr (hs j hj)
  have hle := h j
  omega

/-- A round that brings two bytes, and then rounds without bytes. -/
def chunkRounds : Nat → Drain 1
  | 0 =>
    { trace := dataTrace 20 [65, 66]
      result := (2, [65, 66])
      made := traces_iff_replay.mpr rfl }
  | _ + 1 => emptyRound

theorem buffered_chunkRounds : Buffered chunkRounds 1 := by
  intro s hs
  refine Finset.card_le_one.mpr fun i hi j hj => ?_
  have hzero {j : Nat} (hj : j ∈ s) : j = 0 := by
    have hpos := (chunkRounds j).brings_iff.mpr (hs j hj)
    cases j with
    | zero => rfl
    | succ j => exact absurd hpos (Int.lt_irrefl 0)
  rw [hzero hi, hzero hj]

theorem open_drains_iff_chunk : ∃ k ≤ 1, (∀ j < k, 0 ≤ (chunkRounds j).cnt) ∧
    ∃ n, Traces («open» n .ctor 't' 1 "10.0.0.1" 80)
      (openedTrace ++ saidIn chunkRounds (k + 1)) (some true) := by
  refine (open_drains_iff openedTrace_traces buffered_chunkRounds).mpr fun j _ => ?_
  refine (chunkRounds j).answers_iff.mp ?_
  cases j with
  | zero => exact Int.le_of_lt (by decide)
  | succ j => exact Int.le_refl 0

/-- The module opens the socket and then does not answer: the loop does not stop. -/
theorem open_drains_iff_silent : ¬ ∀ self type id addr port l (rounds : Nat → Drain id) chunks,
    Traces (openLink self type id addr port) l (some true) → Buffered rounds chunks →
    ∃ k ≤ chunks, (∀ j < k, 0 ≤ (rounds j).cnt) ∧
      ∃ n, Traces («open» n self type id addr port) (l ++ saidIn rounds (k + 1)) (some true) := by
  intro h
  obtain ⟨k, -, -, hstops⟩ := h .ctor 't' 1 "10.0.0.1" 80 openedTrace (fun _ => silentRound) 0
    openedTrace_traces (buffered_zero fun _ => by decide)
  have hzero := ((open_iff openedTrace_traces k).mp hstops).2
  exact absurd hzero (by decide)

end Open

end Bg96.Modem
