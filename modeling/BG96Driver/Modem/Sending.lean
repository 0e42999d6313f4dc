import BG96Driver.Modem.Exchange
import BG96Driver.Modem.Network
import BG96Driver.Socket.Records

/-!
# What `BG96::send` reports

`done` is true when the command is not sent, and when nothing is written. It is returned so.

* `Taken`: the module has taken all the bytes. `Clear`: the answers of which `send` makes no
  success.
* `send_honest_iff`: a success of `send`, and what `tx_event` counts, is of bytes that were taken,
  if and only if the answers are clear.
-/

namespace Bg96.Modem

open Program

variable {id : Int} {data : List UInt8} {l : List Exchange} {done : Bool}

/-- The command of `BG96::send`. -/
def qisend (id : Int) (data : List UInt8) : Format :=
  ⟨"AT+QISEND=%d,%ld", [.int id, .int data.length]⟩

def prompt : Format := ⟨">", []⟩

def sendOk : Format := ⟨"SEND OK", []⟩

/-- The command was sent, the prompt came, all the bytes were written, and `SEND OK` came. -/
def Taken (id : Int) (data : List UInt8) (said : List Exchange) : Prop :=
  ∃ p ok, said = [⟨.send (qisend id data), true⟩, ⟨.recv prompt, some p⟩,
    ⟨.write data, (data.length : Int)⟩, ⟨.recv sendOk, some ok⟩]

/-- The command is sent, the write does not fail, and `SEND OK` only comes after the prompt and all
the bytes. -/
structure Clear (id : Int) (data : List UInt8) (said : List Exchange) : Prop where
  sent : ⟨.send (qisend id data), false⟩ ∉ said
  written : ∀ n : Int, n ≤ 0 → ⟨.write data, n⟩ ∉ said
  told : ∀ ok, ⟨.recv sendOk, some ok⟩ ∈ said →
    (∃ p, ⟨.recv prompt, some p⟩ ∈ said) ∧ ⟨.write data, (data.length : Int)⟩ ∈ said

/-- What is said in `send`, and what it returns. -/
inductive ModemSendCase (id : Int) (data : List UInt8) : List Exchange → Bool → Prop where
  | unsent : ModemSendCase id data [⟨.send (qisend id data), false⟩] true
  | unprompted (ok : Option (List Value)) : ModemSendCase id data
      [⟨.send (qisend id data), true⟩, ⟨.recv prompt, none⟩, ⟨.recv sendOk, ok⟩] ok.isSome
  | unwritten (p : List Value) (n : Int) (hn : n ≤ 0) : ModemSendCase id data
      [⟨.send (qisend id data), true⟩, ⟨.recv prompt, some p⟩, ⟨.write data, n⟩] true
  | written (p : List Value) (n : Int) (hn : 0 < n) (ok : Option (List Value)) :
    ModemSendCase id data [⟨.send (qisend id data), true⟩, ⟨.recv prompt, some p⟩, ⟨.write data, n⟩,
        ⟨.recv sendOk, ok⟩] ok.isSome

theorem traces_send (h : Traces (send id data) l (some done)) :
    ModemSendCase id data (spoken l) done := by
  obtain ⟨_, hspoken, hbody⟩ := traces_locked_timed h
  rw [hspoken]
  obtain ⟨sent, _, rfl, hsent⟩ := traces_call.mp hbody
  cases sent with
  | false =>
    obtain ⟨rfl, ⟨⟩⟩ := traces_ret.mp hsent
    exact .unsent
  | true =>
    obtain ⟨p, _, rfl, hp⟩ := traces_call.mp hsent
    cases p with
    | none =>
      obtain ⟨ok, _, rfl, hok⟩ := traces_call.mp hp
      obtain ⟨rfl, ⟨⟩⟩ := traces_ret.mp hok
      exact .unprompted ok
    | some p =>
      obtain ⟨n, _, rfl, hn⟩ := traces_call.mp hp
      change Traces (if (!decide (n ≤ 0)) = true then _ else _) _ _ at hn
      by_cases hle : n ≤ 0
      · rw [decide_eq_true hle] at hn
        obtain ⟨rfl, ⟨⟩⟩ := traces_ret.mp hn
        exact .unwritten p n hle
      · rw [decide_eq_false hle] at hn
        obtain ⟨ok, _, rfl, hok⟩ := traces_call.mp hn
        obtain ⟨rfl, ⟨⟩⟩ := traces_ret.mp hok
        exact .written p n (Int.not_le.mp hle) ok

/-- A reported success is one if and only if the answers are clear. -/
theorem ModemSendCase.taken_iff {said : List Exchange} (h : ModemSendCase id data said done) :
    (done = true → Taken id data said) ↔ Clear id data said := by
  cases h with
  | unsent =>
    refine iff_of_false (fun h => ?_) fun h => h.sent List.mem_cons_self
    obtain ⟨_, _, ⟨⟩⟩ := h rfl
  | unprompted ok =>
    cases ok with
    | none =>
      exact iff_of_true nofun ⟨by simp, by simp, by simp⟩
    | some ok =>
      refine iff_of_false (fun h => ?_) fun h => ?_
      · obtain ⟨_, _, ⟨⟩⟩ := h rfl
      · simpa [prompt, sendOk] using h.told ok
  | unwritten p n hn =>
    refine iff_of_false (fun h => ?_) fun h => h.written n hn (by simp)
    obtain ⟨_, _, ⟨⟩⟩ := h rfl
  | written p n hn ok =>
    have hwritten : ∀ m : Int, m ≤ 0 → m ≠ n := fun m hm => by omega
    have hne : sendOk ≠ prompt := by decide
    cases ok with
    | none => exact iff_of_true nofun ⟨by simp, by simpa using hwritten, by simp [hne]⟩
    | some ok =>
      constructor
      · intro h
        obtain ⟨_, _, hsaid⟩ := h rfl
        obtain ⟨-, rfl, -⟩ : p = _ ∧ n = data.length ∧ ok = _ := by simpa using hsaid
        exact ⟨by simp, by simpa using hwritten, by simp⟩
      · intro h _
        obtain rfl : n = data.length := by simpa [eq_comm] using (h.told ok (by simp)).2
        exact ⟨p, ok, rfl⟩

/-- `tx_event` counts a chunk only if `send` reports a success. -/
theorem done_of_counted {ptr : TxEvent}
    (h : (txEvent ptr done).1.mTxTotalSent ≠ ptr.mTxTotalSent) : done = true := by
  cases done with
  | true => rfl
  | false => exact absurd rfl h

/-- **Truth of `send`.** A success is reported, and a chunk is counted by `tx_event`, only when the
module has taken all the bytes, if and only if the answers are clear. -/
theorem send_honest_iff (h : Traces (send id data) l (some done)) :
    ((done = true → Taken id data (spoken l)) ∧
      ∀ ptr : TxEvent, ptr.mTxSocketID = id → ptr.mTxReqSize = data.length →
        (txEvent ptr done).1.mTxTotalSent ≠ ptr.mTxTotalSent → Taken id data (spoken l)) ↔
      Clear id data (spoken l) := by
  rw [← (traces_send h).taken_iff]
  exact ⟨And.left, fun htaken => ⟨htaken, fun _ _ _ hcount => htaken (done_of_counted hcount)⟩⟩

/-- A byte is sent. -/
def takenTrace : List Exchange :=
  [⟨.lock, ()⟩, ⟨.setTimeout bg96TxTimeout, ()⟩, ⟨.send (qisend 1 [65]), true⟩,
    ⟨.recv prompt, some []⟩, ⟨.write [65], (1 : Int)⟩, ⟨.recv sendOk, some []⟩,
    ⟨.setTimeout atTimeout, ()⟩, ⟨.unlock, ()⟩]

theorem send_honest_iff_taken : Clear 1 [65] (spoken takenTrace) := by
  have h : Traces (send 1 [65]) takenTrace (some true) := traces_iff_replay.mpr rfl
  have htaken : Taken 1 [65] (spoken takenTrace) := ⟨[], [], rfl⟩
  exact (send_honest_iff h).mp ⟨fun _ => htaken, fun _ _ _ _ => htaken⟩

/-- The command cannot be sent. -/
def unsentTrace : List Exchange :=
  [⟨.lock, ()⟩, ⟨.setTimeout bg96TxTimeout, ()⟩, ⟨.send (qisend 1 [65]), false⟩,
    ⟨.setTimeout atTimeout, ()⟩, ⟨.unlock, ()⟩]

theorem send_honest_iff_unsent : ¬ ∀ id data l done, Traces (send id data) l (some done) →
    done = true → Taken id data (spoken l) := by
  intro h
  have hsend : Traces (send 1 [65]) unsentTrace (some true) := traces_iff_replay.mpr rfl
  obtain ⟨_, _, ⟨⟩⟩ := h 1 [65] unsentTrace true hsend rfl

end Bg96.Modem
