import BG96Driver.Socket.Replay
import Mathlib.Data.Fintype.Card

/-!
# The pool of sockets

`socket_open` gives the first socket whose `id` is `-1`, and `socket_close` gives it back.

* `held`: the handles that `socket_open` has returned and `socket_close` has not closed since, as
  the trace shows them.
* `held_spec`: they are pairwise distinct, and they are the open sockets.
* `socket_pool`: what this gives for the calls in a reachable state.
-/

namespace Bg96

open History Interface

/-- The handles that were returned and are not closed, the newest first. -/
def held : Trace → List Slot
  | [] => []
  | e :: h =>
    match e.inp with
    | .open _ => e.comp :: held h
    | .close => (held h).erase e.comp
    | _ => held h

theorem held_frame {e : Entry Slot Act Out} {h : Trace} (he : .session ∉ e.inp.sides) :
    held (e :: h) = held h := by
  obtain ⟨i, a, out⟩ := e
  cases a <;> first | rfl | simp [Act.sides] at he

/-- **The held handles are the open sockets**, each once. -/
theorem held_spec {s0 : Slot → SlotState} {h : Trace} (h0 : ∀ i, (s0 i).sock.id = -1)
    (ha : Along SlotState.step SlotState.Allowed s0 h) :
    (held h).Nodup ∧ ∀ i, i ∈ held h ↔ (after SlotState.step s0 h i).sock.id = i.val := by
  induction h with
  | nil =>
    refine ⟨List.nodup_nil, fun i => ?_⟩
    have := h0 i
    simp only [held, List.not_mem_nil, after_nil, false_iff]
    omega
  | cons e h ih =>
    obtain ⟨c, a, out⟩ := e
    obtain ⟨hnodup, hmem⟩ := ih ha.2
    have hother {i : Slot} (hi : c ≠ i) :
        (after SlotState.step s0 (⟨c, a, out⟩ :: h) i).sock.id = i.val ↔ i ∈ held h := by
      rw [after_cons_ne hi, hmem]
    cases a with
    | «open» proto =>
      have hfree : (after SlotState.step s0 h c).sock.id = -1 := ha.1
      refine ⟨List.nodup_cons.mpr ⟨fun hc => ?_, hnodup⟩, fun i => ?_⟩
      · have := (hmem c).mp hc
        omega
      · by_cases hi : c = i
        · subst hi
          rw [after_cons_self rfl]
          simp [held, SlotState.step, openSocket]
        · rw [hother hi, held, List.mem_cons, or_iff_right (Ne.symm hi)]
    | close =>
      refine ⟨hnodup.erase c, fun i => ?_⟩
      rw [held, hnodup.mem_erase_iff]
      by_cases hi : c = i
      · subst hi
        rw [after_cons_self rfl]
        simp only [ne_eq, not_true_eq_false, false_and, SlotState.step, closeSocket, false_iff]
        omega
      · rw [hother hi]
        exact and_iff_right (Ne.symm hi)
    | _ =>
      rw [held_frame (by simp [Act.sides])]
      refine ⟨hnodup, fun i => ?_⟩
      by_cases hi : c = i
      · subst hi
        rw [after_cons_self rfl, SlotState.step_id (by simp [Act.sides])]
        exact hmem c
      · rw [hother hi]

/-- All the handles are held when there are as many of them as sockets. -/
theorem held_full {l : List Slot} (hl : l.Nodup) : l.length = bg96SocketCount ↔ ∀ i, i ∈ l := by
  have hcard : l.toFinset.card = l.length := List.toFinset_card_of_nodup hl
  have huniv : Fintype.card Slot = bg96SocketCount := Fintype.card_fin _
  refine ⟨fun h i => ?_, fun h => ?_⟩
  · have hall : l.toFinset = Finset.univ := Finset.eq_univ_of_card _ (by omega)
    rw [← List.mem_toFinset, hall]
    exact Finset.mem_univ i
  · have hall : l.toFinset = Finset.univ :=
      Finset.eq_univ_iff_forall.mpr fun i => List.mem_toFinset.mpr (h i)
    rw [← hcard, hall, Finset.card_univ, huniv]

namespace Interface

variable {s : Interface} {h : Slot}

/-- `socket_open` with no free socket. -/
theorem socketOpen_full (proto : NsapiProtocol) (hs : ∀ i, (s.gSock i).id ≠ -1) :
    s.socketOpen proto = (s, nsapiErrorNoSocket, none) := by
  have hfind : ((List.finRange bg96SocketCount).find? fun i => (s.gSock i).id = -1) = none := by
    rw [List.find?_eq_none]
    exact fun i _ => by simpa using hs i
  rw [socketOpen, hfind]

/-- `socket_open` with a free socket takes a free one. -/
theorem socketOpen_free (proto : NsapiProtocol) {j : Slot} (hj : (s.gSock j).id = -1) :
    ∃ i, (s.gSock i).id = -1 ∧ (s.socketOpen proto).2 = (nsapiErrorOk, some i) ∧
      held (s.socketOpen proto).1.trace = i :: held s.trace ∧
      ∀ k, k ≠ i → (s.socketOpen proto).1.slot k = s.slot k := by
  cases hfind : (List.finRange bg96SocketCount).find? fun i => (s.gSock i).id = -1 with
  | none =>
    rw [List.find?_eq_none] at hfind
    exact absurd hj (by simpa using hfind j (List.mem_finRange j))
  | some i =>
    refine ⟨i, by simpa using List.find?_some hfind, ?_⟩
    rw [socketOpen, hfind]
    exact ⟨rfl, rfl, fun k hk => Function.update_of_ne hk _ _⟩

/-- `socket_close` of a closed socket. -/
theorem socketClose_closed (hs : (s.gSock h).id = -1) :
    s.socketClose h = (s, nsapiErrorDeviceError) := by
  rw [socketClose, if_neg (by omega)]

/-- `socket_close` of an open socket. -/
theorem socketClose_open (hs : (s.gSock h).id = h.val) :
    (s.socketClose h).2 = nsapiErrorOk ∧
      held (s.socketClose h).1.trace = (held s.trace).erase h ∧
      ∀ k, k ≠ h → (s.socketClose h).1.slot k = s.slot k := by
  rw [socketClose, if_pos (by omega), hs, tableIndex_val]
  exact ⟨rfl, rfl, fun k hk => Function.update_of_ne hk _ _⟩

end Interface

/-- **The pool neither duplicates nor loses sockets.** In every reachable state each `id` is `-1` or
the socket's index, and the handles that are held are pairwise distinct and are the open sockets.
`socket_open` fails, without an effect, if and only if all are held, and else returns one that is
not held; `socket_close` fails, without an effect, if the handle is not held. Neither changes
another socket. -/
theorem socket_pool {raw : Slot → SlotState} {s : Interface} (hr : Reachable raw s) :
    (∀ i, (s.gSock i).id = -1 ∨ (s.gSock i).id = i.val) ∧
    (held s.trace).Nodup ∧ (∀ i, i ∈ held s.trace ↔ 0 ≤ (s.gSock i).id) ∧
    (∀ proto,
      ((s.socketOpen proto).2.1 = nsapiErrorNoSocket ↔
        (held s.trace).length = bg96SocketCount) ∧
      ((held s.trace).length = bg96SocketCount →
        s.socketOpen proto = (s, nsapiErrorNoSocket, none)) ∧
      ((held s.trace).length ≠ bg96SocketCount →
        ∃ i, i ∉ held s.trace ∧ (s.socketOpen proto).2 = (nsapiErrorOk, some i) ∧
          held (s.socketOpen proto).1.trace = i :: held s.trace ∧
          ∀ k, k ≠ i → (s.socketOpen proto).1.slot k = s.slot k)) ∧
    ∀ h,
      (h ∉ held s.trace → s.socketClose h = (s, nsapiErrorDeviceError)) ∧
      (h ∈ held s.trace → (s.socketClose h).2 = nsapiErrorOk ∧
        held (s.socketClose h).1.trace = (held s.trace).erase h ∧
        ∀ k, k ≠ h → (s.socketClose h).1.slot k = s.slot k) := by
  have hgood := hr.good
  obtain ⟨hnodup, hmem⟩ := held_spec (fun _ => rfl) hgood.allowed
  have hid (i : Slot) : (s.gSock i).id = -1 ∨ (s.gSock i).id = i.val := hgood.id i
  have hopen (i : Slot) : i ∈ held s.trace ↔ (s.gSock i).id = i.val := by
    rw [hmem, ← hgood.replay]
    rfl
  have hclosed (i : Slot) : i ∉ held s.trace ↔ (s.gSock i).id = -1 := by
    rw [hopen]
    have := hid i
    omega
  have hfull := held_full hnodup
  refine ⟨hid, hnodup, fun i => ?_, fun proto => ?_, fun h => ⟨fun hh => ?_, fun hh => ?_⟩⟩
  · rw [hopen]
    have := hid i
    omega
  · by_cases hlen : (held s.trace).length = bg96SocketCount
    · have hno := socketOpen_full proto fun i hi => (hclosed i).mpr hi (hfull.mp hlen i)
      exact ⟨iff_of_true (by rw [hno]) hlen, fun _ => hno, fun h => absurd hlen h⟩
    · obtain ⟨j, hj⟩ := not_forall.mp (mt hfull.mpr hlen)
      obtain ⟨i, hi, hret, hheld, hframe⟩ := socketOpen_free proto ((hclosed j).mp hj)
      refine ⟨iff_of_false (by rw [hret]; simp [nsapiErrorOk, nsapiErrorNoSocket]) hlen,
        fun h => absurd h hlen, fun _ => ?_⟩
      exact ⟨i, (hclosed i).mpr hi, hret, hheld, hframe⟩
  · exact socketClose_closed ((hclosed h).mp hh)
  · exact socketClose_open ((hopen h).mp hh)

/-- Three sockets are opened and the second one is closed. -/
def reopened : List Label :=
  [.call (.open .nsapiTcp) .done .done, .call (.open .nsapiUdp) .done .done,
    .call (.open .nsapiTcp) .done .done, .call (.close 1) .done .done]

/-- After `reopened`, `socket_close` of the second handle fails, and of the third one does not. -/
theorem socket_pool_reopened :
    held (afterSteps reopened).trace = [2, 0] ∧
    (afterSteps reopened).socketClose 1 = (afterSteps reopened, nsapiErrorDeviceError) ∧
    ((afterSteps reopened).socketClose 2).2 = nsapiErrorOk := by
  have hheld : held (afterSteps reopened).trace = [2, 0] := by decide
  have hreach : Reachable _ (afterSteps reopened) := afterSteps_reachable (by decide)
  have h := (socket_pool hreach).2.2.2.2
  exact ⟨hheld, (h 1).1 (by rw [hheld]; decide), ((h 2).2 (by rw [hheld]; decide)).1⟩

end Bg96
