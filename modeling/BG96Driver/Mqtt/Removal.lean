import BG96Driver.Mqtt.Client

/-!
# `BG96MQTTClient::remove_subscription`: the other subscriptions

* `removeSubscriptionResult`: the function, with what it returns.
* `removeAll`: the removal of subscriptions one after the other.
* `removal_exact`: one removal takes out one subscription of a list; all of them, in any order,
  leave the empty list.
-/

namespace Bg96

open Linked

/-- `BG96MQTTClient::remove_subscription`: what it returns, the heap and `_sublist` after it. -/
def removeSubscriptionResult (n : Nat) (heap : Heap) (sublist sub : Nat) :
    Option (Bool × Heap × Nat) :=
  if sub = 0 then some (true, heap, sublist)
  else (removeSubscription n heap sublist sub).bind fun r => some (true, r)

/-- `remove_subscription` of the subscriptions `order`: the heap and `_sublist` after it. -/
def removeAll (n : Nat) (heap : Heap) (sublist : Nat) : List Nat → Option (Heap × Nat)
  | [] => some (heap, sublist)
  | sub :: order => (removeSubscriptionResult n heap sublist sub).bind fun r =>
    removeAll n r.2.1 r.2.2 order

/-- `remove_subscription` takes the subscription `c` out of the list `l`: it returns `true`, what it
leaves is the list without `c`, with the contents of the other subscriptions, and of these only the
one that links to `c` gets another link. -/
def TakesOut (n : Nat) (heap : Heap) (sublist : Nat) (l : List (Nat × MqttSubscription))
    (c : Nat × MqttSubscription) : Prop :=
  ∃ heap' p l', removeSubscriptionResult n heap sublist c.1 = some (true, heap', p) ∧
    Subscriptions heap' p l' ∧ contents l' = contents (l.erase c) ∧
    ∀ q, q ≠ c.1 → (∀ d ∈ l, d.2.next = c.1 → q ≠ d.1) → heap' q = heap q

variable {heap : Heap} {sublist n : Nat} {l : List (Nat × MqttSubscription)}
  {c : Nat × MqttSubscription} {order : List Nat}

theorem takesOut (h : Subscriptions heap sublist l) (hn : l.length ≤ n) (hc : c ∈ l) :
    TakesOut n heap sublist l c := by
  obtain ⟨l₁, l₂, rfl⟩ := List.append_of_mem hc
  have h0 : c.1 ≠ 0 := (h.mem c hc).1
  have hnot : c ∉ l₁ := fun hmem =>
    h.not_mem_others (List.mem_map_of_mem (List.mem_append_left _ hmem))
  obtain ⟨heap', p, l', hres, hlist, hcontents, -, hframe⟩ := removeSubscription_spec h hn
  refine ⟨heap', p, l', ?_, hlist, ?_, fun q hq hlink => hframe q hq fun d hd => ?_⟩
  · rw [removeSubscriptionResult, if_neg h0, hres, Option.bind_some]
  · rw [List.erase_append_right _ hnot, List.erase_cons_head, hcontents]
  · exact hlink d (List.mem_append_left _ hd)

/-- Each removal leaves the list of the subscriptions that are still to be removed. -/
theorem removeAll_perm (h : Subscriptions heap sublist l) (hn : l.length ≤ n)
    (horder : order.Perm (l.map Prod.fst)) :
    ∃ heap', removeAll n heap sublist order = some (heap', 0) := by
  induction order generalizing heap sublist l with
  | nil =>
    obtain rfl : l = [] := List.map_eq_nil_iff.mp horder.nil_eq.symm
    obtain rfl : sublist = 0 := h
    exact ⟨heap, rfl⟩
  | cons sub order ih =>
    obtain ⟨c, hc, rfl⟩ := List.mem_map.mp (horder.subset List.mem_cons_self)
    obtain ⟨heap', p, l', hres, hlist, hcontents, -⟩ := takesOut h hn hc
    have hfst : l'.map Prod.fst = (l.erase c).map Prod.fst := by
      rw [← map_fst_contents, hcontents, map_fst_contents]
    have hrest : (c.1 :: order).Perm (c.1 :: l'.map Prod.fst) := by
      rw [hfst]
      exact horder.trans ((List.perm_cons_erase hc).map Prod.fst)
    have hlen : l'.length ≤ n := by
      have hlen := congrArg List.length hfst
      rw [List.length_map, List.length_map, List.length_erase_of_mem hc] at hlen
      omega
    obtain ⟨heap'', hall⟩ := ih hlist hlen hrest.cons_inv
    exact ⟨heap'', by rw [removeAll, hres, Option.bind_some, hall]⟩

/-- **Removal.** In a list that ends in `NULL`, the removal of any subscription takes it out and
nothing else, and all subscriptions can be removed in any order. The heap may have nothing at
`NULL`. -/
theorem removal_exact (h : Subscriptions heap sublist l) (hn : l.length ≤ n) :
    (∀ c ∈ l, TakesOut n heap sublist l c) ∧
      ∀ order : List Nat, order.Perm (l.map Prod.fst) →
        ∃ heap', removeAll n heap sublist order = some (heap', 0) :=
  ⟨fun _ hc => takesOut h hn hc, fun _ horder => removeAll_perm h hn horder⟩

/-- Three subscriptions. -/
def threeSubscriptions : List (Nat × MqttSubscription) :=
  [(8, ⟨1, 1, topicAx, none, 0, 16⟩), (16, ⟨2, 0, topicAx, none, 0, 24⟩),
    (24, ⟨3, 0, topicAx, some 64, 0, 0⟩)]

def threeHeap : Heap := fun p => threeSubscriptions.lookup p

theorem removal_exact_threeHeap : ∃ heap', removeAll 3 threeHeap 8 [16, 24, 8] = some (heap', 0) := by
  have hlist : Subscriptions threeHeap 8 threeSubscriptions :=
    ⟨rfl, by decide, rfl, rfl, by decide, rfl, rfl, by decide, rfl, rfl⟩
  refine (removal_exact hlist (Nat.le_refl 3)).2 [16, 24, 8] ?_
  exact ((List.Perm.swap 8 24 []).cons 16).trans (List.Perm.swap 8 16 [24])

end Bg96
